import PqcScan.Probes.ZeekLogs
import PqcScan.Python.Repr

/-!
# The two encodings of a log

The records of a log written in columns and as lines of JSON, and when the two are read
alike.
-/

namespace PqcScan
namespace Probes
namespace FsZeekLogs

open Library Python PqcScan.Core

/-! ## Records -/

/-- The value of a field.  What the probe does not read may be of any other type. -/
inductive Value
  | unset
  | text (content : List Char)
  | count (number : Nat)
  | set (items : List (List Char))
  | other (written : List Char) (parsed : Json)

/-- A string in a column. -/
def writtenText (content : List Char) : List Char :=
  if content = [] then "(empty)".toList else content

/-- The value in a column. -/
def Value.written : Value → List Char
  | unset => ['-']
  | text content => writtenText content
  | count number => (toString number).toList
  | set items => if items = [] then "(empty)".toList
      else [','].intercalate (items.map writtenText)
  | other written _ => written

/-- The value in an object; an unset field is left out. -/
def Value.parsed : Value → Option Json
  | unset => none
  | text content => some (.str (String.ofList content))
  | count number => some (.int number)
  | set items => some (.array (items.map fun item => .str (String.ofList item)))
  | other _ parsed => some parsed

/-- A record: its fields by name. -/
abbrev Record := String → Value

/-- A string or a number, or no value. -/
def Value.Plain : Value → Prop
  | unset | text _ | count _ => True
  | set _ | other _ _ => False

/-- A set, or no value. -/
def Value.IsSet : Value → Prop
  | unset | set _ => True
  | text _ | count _ | other _ _ => False

/-- The fields with a string or a number that are read. -/
def plainFields : Source → List String
  | .ssl => ["version", "cipher", "curve", "server_name", "id.resp_h", "id.resp_p"]
  | .x509 => ["certificate.sig_alg", "certificate.key_alg", "certificate.curve"]

/-- The fields that are read have the types of the log. -/
structure Typed (source : Source) (record : Record) : Prop where
  plain : ∀ name ∈ plainFields source, (record name).Plain
  names : source = .x509 → (record "san.dns").IsSet

/-! ## Columns -/

/-- A line of a file. -/
structure IsLine (line : List Char) : Prop where
  filled : line ≠ []
  newline : '\n' ∉ line
  carriage : '\r' ∉ line

instance (line : List Char) : Decidable (IsLine line) :=
  decidable_of_iff (line ≠ [] ∧ '\n' ∉ line ∧ '\r' ∉ line)
    ⟨fun parts => ⟨parts.1, parts.2.1, parts.2.2⟩,
      fun isLine => ⟨isLine.filled, isLine.newline, isLine.carriage⟩⟩

/-- A comment that is not one of the two headers that are read. -/
structure IsRemark (line : List Char) : Prop where
  isLine : IsLine line
  comment : startsWith line "#" = true
  notSeparator : startsWith line "#separator" = false
  notFields : startsWith line "#fields" = false

/-- The columns of a log and the text around its rows. -/
structure Layout where
  separator : Char
  columns : List (List Char)
  /-- The escape of the separator in its header, unless the separator is a tab. -/
  escape : Option (List Char)
  before : List (List Char)
  between : List (List Char)
  behind : List (List Char)

namespace Layout

variable (layout : Layout)

/-- The line of a record. -/
def row (record : Record) : List Char :=
  [layout.separator].intercalate (layout.columns.map fun name =>
    (record (String.ofList name)).written)

/-- The lines before the rows. -/
def header : List (List Char) :=
  (layout.escape.toList.map fun escape => "#separator ".toList ++ escape) ++
    layout.before ++
    [[layout.separator].intercalate ("#fields".toList :: layout.columns)] ++
    layout.between

/-- The log in columns. -/
def lines (records : List Record) : List (List Char) :=
  layout.header ++ records.map layout.row ++ layout.behind

/-- The file. -/
def file (records : List Record) : List (List Char) :=
  (layout.lines records).map (· ++ ['\n'])

end Layout

/-- A layout that fits the records: every field has one column, and the separator is
neither in a name nor in a value. -/
structure Layout.Fits (readers : Readers) (layout : Layout)
    (records : List Record) : Prop where
  escape : layout.escape = none ∧ layout.separator = '\t' ∨
    ∃ escape, layout.escape = some escape ∧ IsLine escape ∧ strip escape = escape ∧
      readers.unicodeEscape escape = some [layout.separator]
  distinct : layout.columns.Nodup
  filled : layout.columns ≠ []
  complete : ∀ record ∈ records, ∀ name, record name ≠ .unset →
    name.toList ∈ layout.columns
  names : ∀ name ∈ "#fields".toList :: layout.columns,
    layout.separator ∉ name ∧ IsLine name
  values : ∀ record ∈ records, ∀ name ∈ layout.columns,
    layout.separator ∉ (record (String.ofList name)).written ∧
      IsLine (record (String.ofList name)).written
  newline : layout.separator ≠ '\n' ∧ layout.separator ≠ '\r'
  remarks : ∀ line ∈ layout.before ++ layout.between ++ layout.behind, IsRemark line

/-- A line with the object of a record. -/
structure IsObject (readers : Readers) (record : Record) (line : List Char) : Prop where
  isLine : IsLine line
  opens : opensObject line = true
  loads : ∃ members, readers.loads line = some (.object members) ∧
    ∀ name, (Dict.ofList members).get? name = (record name).parsed

/-- A file with a line for each record. -/
def IsJsonFile (readers : Readers) (records : List Record)
    (file : List (List Char)) : Prop :=
  List.Forall₂ (fun record line => ∃ text, line = text ++ ['\n'] ∧
    IsObject readers record text)
    records file

/-! ## Cells -/

section Cells

variable {readers : Readers}

/-- The cell of a value in a column. -/
def Value.column (value : Value) : Option (List Char) := cellOf value.written

/-- The cell of a value in an object. -/
def Value.member (readers : Readers) (value : Value) : Option (List Char) :=
  match value.parsed with
  | none => none
  | some .null => none
  | some value => cellOf (value.toStr readers.toText).toList

theorem column_eq_member {value : Value} (plain : value.Plain) :
    value.column = value.member readers := by
  cases value with
  | unset =>
      change cellOf ['-'] = none
      decide
  | text content =>
      rw [Value.column, Value.member, Value.written, Value.parsed]
      change _ = cellOf (String.ofList content).toList
      rw [String.toList_ofList, writtenText]
      split
      · next empty =>
        rw [empty]
        decide
      · rfl
  | count number => rfl
  | set items => cases plain
  | other written parsed => cases plain

/-! ### Sets -/

/-- The brackets in a text. -/
def brackets (text : List Char) : Nat := text.count '['

@[simp] theorem brackets_append (front rest : List Char) :
    brackets (front ++ rest) = brackets front + brackets rest := List.count_append

theorem brackets_strip (text : List Char) : brackets (strip text) = brackets text := by
  have drop : ∀ text : List Char, brackets (text.dropWhile isSpace) = brackets text := by
    intro text
    have none_ : brackets (text.takeWhile isSpace) = 0 := by
      refine List.count_eq_zero.mpr fun member => ?_
      have space := List.mem_takeWhile_imp member
      revert space
      decide
    conv_rhs => rw [← List.takeWhile_append_dropWhile (p := isSpace) (l := text)]
    rw [brackets_append, none_, Nat.zero_add]
  have reverse : ∀ text : List Char, brackets text.reverse = brackets text :=
    fun text => List.count_reverse
  rw [strip, reverse, drop, reverse, drop]

theorem brackets_escapeChar (text : Text) (quote char : Char) :
    brackets [char] ≤ brackets (escapeChar text quote char) := by
  by_cases bracket : char = '['
  · subst bracket
    unfold escapeChar
    split_ifs <;> simp_all [brackets]
  · simp [brackets, bracket]

theorem brackets_reprStr (text : Text) (value : List Char) :
    brackets value ≤ brackets (Python.reprStr text (String.ofList value)).toList := by
  have escaped : ∀ quote,
      brackets value ≤ brackets (value.flatMap (escapeChar text quote)) := by
    intro quote
    induction value with
    | nil => exact Nat.zero_le _
    | cons char value inductionHypothesis =>
        have first := brackets_escapeChar text quote char
        rw [← List.singleton_append, brackets_append, List.flatMap_append,
          brackets_append, List.flatMap_singleton]
        exact Nat.add_le_add first inductionHypothesis
  have quoted : ∀ quote, brackets value ≤
      brackets (quote :: value.flatMap (escapeChar text quote) ++ [quote]) := by
    intro quote
    rw [← List.singleton_append, brackets_append, brackets_append]
    exact (escaped quote).trans (by omega)
  unfold Python.reprStr
  simp only [String.toList_ofList]
  exact quoted _

theorem brackets_writtenText (content : List Char) :
    brackets (writtenText content) = brackets content := by
  rw [writtenText]
  split
  · next empty =>
    rw [empty]
    decide
  · rfl

theorem brackets_items (items : List (List Char)) :
    brackets ([','].intercalate (items.map writtenText)) = (items.map brackets).sum := by
  induction items with
  | nil => rfl
  | cons item items inductionHypothesis =>
      cases items with
      | nil => simp [List.intercalate, brackets_writtenText]
      | cons other items =>
          rw [List.map_cons, List.map_cons, List.intercalate_cons_cons, ← List.map_cons,
            brackets_append, brackets_append, inductionHypothesis, brackets_writtenText,
            List.map_cons, List.sum_cons]
          simp [brackets]

theorem brackets_reprItems (text : Text) (items : List (List Char)) :
    (items.map brackets).sum ≤ brackets (", ".intercalate (reprItems text
      (items.map fun item => .str (String.ofList item)))).toList := by
  induction items with
  | nil => exact Nat.zero_le _
  | cons item items inductionHypothesis =>
      have first := brackets_reprStr text item
      cases items with
      | nil => simpa [reprItems, Json.repr] using first
      | cons other items =>
          simp only [List.map_cons, reprItems, String.intercalate_cons_cons,
            String.toList_append, brackets_append, List.sum_cons,
            Json.repr] at inductionHypothesis ⊢
          omega

/-- The text of a set in an object. -/
def objectText (text : Text) (items : List (List Char)) : List Char :=
  '[' :: (reprStrings text items ++ [']'])

theorem toStr_array (text : Text) (items : List (List Char)) :
    ((Json.array (items.map fun item => .str (String.ofList item))).toStr text).toList =
      objectText text items := by
  rw [Json.toStr, Json.repr, String.toList_append, String.toList_append, objectText,
    reprStrings]
  · rfl
  · intro name same
    cases same

theorem strip_objectText (text : Text) (items : List (List Char)) :
    strip (objectText text items) = objectText text items := by
  have shape : objectText text items = ('[' :: reprStrings text items) ++ [']'] := rfl
  rw [strip, objectText, List.dropWhile_cons_of_neg (by decide), ← objectText, shape,
    List.reverse_append, List.reverse_singleton, List.singleton_append,
    List.dropWhile_cons_of_neg (by decide), List.reverse_cons, List.reverse_reverse]

theorem set_member (items : List (List Char)) :
    (Value.set items).member readers = some (objectText readers.toText items) := by
  have bracket : ∀ name ∈ ["", "-", "(empty)"], name.toList.head? ≠ some '[' := by decide
  change cellOf _ = _
  rw [toStr_array, cellOf, strip_objectText]
  refine if_neg fun placeholder => ?_
  obtain ⟨name, member, same⟩ := List.any_eq_true.mp placeholder
  apply bracket name member
  rw [eq_of_beq same]
  rfl

/-- Different sets differ in an object. -/
theorem objectText_injective (text : Text) : Function.Injective (objectText text) :=
  fun _ _ same => reprStrings_injective text (List.cons.inj same).2

/-- A set has more brackets in an object than in a column. -/
theorem brackets_set (text : Text) (items : List (List Char)) :
    brackets ((Value.set items).column.getD []) < brackets (objectText text items) := by
  have parts : (items.map brackets).sum ≤ brackets (reprStrings text items) :=
    brackets_reprItems text items
  have object : brackets (objectText text items) =
      brackets (reprStrings text items) + 1 := by
    have outer : brackets [']'] = 0 ∧ brackets ['['] = 1 := by decide
    rw [objectText, ← List.singleton_append, brackets_append, brackets_append,
      outer.1, outer.2]
    omega
  have column : brackets ((Value.set items).column.getD []) ≤
      (items.map brackets).sum := by
    rw [Value.column, cellOf]
    split
    · exact Nat.zero_le _
    · rw [Option.getD_some, brackets_strip, Value.written]
      split
      · next empty =>
        rw [empty]
        decide
      · exact (brackets_items items).le
  omega

/-! ### Rows -/

theorem cell_object {record : Record} {members : List (String × Json)}
    (same : ∀ name, (Dict.ofList members).get? name = (record name).parsed)
    (name : String) :
    cell readers (Dict.ofList members) name = (record name).member readers := by
  rw [cell, same]
  rfl

/-- The columns of a record. -/
def columnRow (columns : List (List Char)) (record : Record) : Row :=
  rowOf columns (columns.map fun name => (record (String.ofList name)).written)

theorem zip_columnRow (columns : List (List Char)) (record : Record) :
    (columns.map String.ofList).zip ((columns.map fun name =>
      (record (String.ofList name)).written).map fun col =>
        Json.str (String.ofList col)) =
      columns.map fun name =>
        (String.ofList name,
          .str (String.ofList (record (String.ofList name)).written)) := by
  induction columns with
  | nil => rfl
  | cons name columns inductionHypothesis =>
      exact congrArg (List.cons _) inductionHypothesis

theorem cell_columnRow {columns : List (List Char)} {record : Record}
    (distinct : columns.Nodup)
    (complete : ∀ name, record name ≠ .unset → name.toList ∈ columns) (name : String) :
    cell readers (columnRow columns record) name = (record name).column := by
  rw [cell, columnRow, rowOf, zip_columnRow]
  by_cases present : name.toList ∈ columns
  · have found := @Dict.get?_ofList_of_mem _ _ _ (columns.map fun name =>
      (String.ofList name,
        Json.str (String.ofList (record (String.ofList name)).written))) (by
        rw [List.map_map]
        exact distinct.map fun _ _ same => String.ofList_injective same)
      (String.ofList name.toList,
        Json.str (String.ofList (record (String.ofList name.toList)).written))
      (List.mem_map_of_mem present)
    rw [String.ofList_toList] at found
    rw [found]
    change cellOf (String.ofList (record name).written).toList = _
    rw [String.toList_ofList, Value.column]
  · have unset : record name = .unset := by
      by_contra other
      exact present (complete name other)
    have absent : (Dict.ofList (columns.map fun name => (String.ofList name,
        Json.str (String.ofList (record (String.ofList name)).written)))).get? name =
          none := by
      rw [Dict.get?_ofList, List.filter_eq_nil_iff.mpr]
      · rfl
      · intro pair member same
        obtain ⟨column, inside, rfl⟩ := List.mem_map.mp member
        apply present
        rw [← of_decide_eq_true same, String.toList_ofList]
        exact inside
    rw [absent, unset]
    change none = cellOf ['-']
    decide

/-! ### Splitting -/

theorem splitBy_intercalate {separator : Char} {cells : List (List Char)}
    (filled : cells ≠ [])
    (free : ∀ cell ∈ cells, separator ∉ cell) {count : Nat}
    (enough : cells.length ≤ count + 1) :
    splitBy [separator] count ([separator].intercalate cells) = cells := by
  induction cells generalizing count with
  | nil => exact absurd rfl filled
  | cons cell cells inductionHypothesis =>
      rw [List.forall_mem_cons] at free
      cases cells with
      | nil =>
          rw [List.intercalate_singleton]
          cases count with
          | zero => rfl
          | succ count =>
              have none_ := @cut_append separator [] cell free.1 []
              rw [List.append_nil] at none_
              rw [splitBy, none_]
              rfl
      | cons other cells =>
          rw [List.intercalate_cons_cons]
          obtain ⟨count, rfl⟩ : ∃ more, count = more + 1 :=
            ⟨count - 1, by simp only [List.length_cons] at enough; omega⟩
          have here : cut [separator] (cell ++ [separator] ++ [separator].intercalate
              (other :: cells)) =
                some (cell, [separator].intercalate (other :: cells)) := by
            rw [List.append_assoc, cut_append free.1, List.singleton_append, cut,
              if_pos (by simp)]
            simp
          rw [splitBy, here]
          simp only
          rw [inductionHypothesis (List.cons_ne_nil _ _) free.2 (by
            simp only [List.length_cons] at enough ⊢
            omega)]

theorem length_intercalate (separator : Char) (cells : List (List Char)) :
    cells.length ≤ ([separator].intercalate cells).length + 1 := by
  induction cells with
  | nil => exact Nat.zero_le _
  | cons cell cells inductionHypothesis =>
      cases cells with
      | nil => simp
      | cons other cells =>
          rw [List.intercalate_cons_cons, List.length_cons, List.length_append,
            List.length_append, List.length_singleton]
          omega

theorem split_intercalate {separator : Char} {cells : List (List Char)}
    (filled : cells ≠ [])
    (free : ∀ cell ∈ cells, separator ∉ cell) :
    split [separator] ([separator].intercalate cells) = some cells := by
  rw [split, if_neg (List.cons_ne_nil _ _),
    splitBy_intercalate filled free (length_intercalate separator cells)]

/-! ### Lines -/

theorem IsLine.chomp {line : List Char} (isLine : IsLine line) :
    chomp (line ++ ['\n']) = line := by
  have last : ∀ {char : Char}, char ∉ line → line.rdropWhile (· == char) = line := by
    intro char absent
    rw [List.rdropWhile_eq_self_iff]
    intro filled same
    exact absent (beq_iff_eq.mp same ▸ List.getLast_mem filled)
  rw [FsZeekLogs.chomp, List.rdropWhile_concat_pos _ _ _ (by decide), last isLine.newline,
    last isLine.carriage]

theorem opensObject_comment {line : List Char} (comment : startsWith line "#" = true) :
    opensObject line = false := by
  obtain ⟨rest, rfl⟩ := startsWith_iff.mp comment
  rw [show "#".toList = ['#'] by decide, List.singleton_append, opensObject,
    List.dropWhile_cons_of_neg (by decide)]
  rfl

theorem readLine_comment {reader : Reader} {line : List Char}
    (mode : reader.mode ≠ some .json)
    (isLine : IsLine line) (comment : startsWith line "#" = true) :
    readLine readers reader (line ++ ['\n']) =
      (readComment readers { reader with mode := some .tsv } line).map fun reader =>
        (reader, none) := by
  have tsv : reader.mode.getD (if opensObject line then .json else .tsv) = .tsv := by
    rw [opensObject_comment comment]
    match found : reader.mode with
    | none => rfl
    | some .tsv => rfl
    | some .json => exact absurd found mode
  rw [readLine, isLine.chomp]
  simp only
  rw [if_neg isLine.filled, tsv, readFilled, if_neg (by simp), if_pos comment]

theorem IsRemark.readComment {line : List Char} (remark : IsRemark line)
    (reader : Reader) :
    readComment readers reader line = some reader := by
  rw [FsZeekLogs.readComment, if_neg (by rw [remark.notSeparator]; decide),
    if_neg (by rw [remark.notFields]; decide)]

theorem rowsFrom_of_readLine {reader next : Reader} {line : List Char} {row : Option Row}
    (read : readLine readers reader line = some (next, row)) (handle : List (List Char)) :
    rowsFrom readers reader (line :: handle) =
      (row.toList ++ (rowsFrom readers next handle).1,
        (rowsFrom readers next handle).2) := by
  rw [rowsFrom, read]

/-- Remarks are passed over. -/
theorem rowsFrom_remarks {lines : List (List Char)}
    (remarks : ∀ line ∈ lines, IsRemark line)
    {reader : Reader} (mode : reader.mode ≠ some .json) (handle : List (List Char)) :
    ∃ next, (next = reader ∨ next = { reader with mode := some .tsv }) ∧
      rowsFrom readers reader (lines.map (· ++ ['\n']) ++ handle) =
        rowsFrom readers next handle := by
  induction lines generalizing reader with
  | nil => exact ⟨reader, .inl rfl, rfl⟩
  | cons line lines inductionHypothesis =>
      rw [List.forall_mem_cons] at remarks
      have read := @readLine_comment readers reader line mode remarks.1.isLine
        remarks.1.comment
      rw [remarks.1.readComment, Option.map_some] at read
      obtain ⟨next, same, later⟩ := @inductionHypothesis remarks.2
        { reader with mode := some .tsv } nofun
      refine ⟨next, .inr ?_, ?_⟩
      · rcases same with rfl | rfl <;> rfl
      · rw [List.map_cons, List.cons_append, rowsFrom_of_readLine read, later]
        rfl

/-- A comment that keeps a separator. -/
structure Harmless (readers : Readers) (line : List Char) : Prop where
  isLine : IsLine line
  comment : startsWith line "#" = true
  separator : startsWith line "#separator" = true → ∀ front raw,
    cut [' '] line = some (front, raw) →
    decodeSeparator readers (strip raw) ≠ []

theorem IsRemark.harmless {line : List Char} (remark : IsRemark line) :
    Harmless readers line where
  isLine := remark.isLine
  comment := remark.comment
  separator := by
    rw [remark.notSeparator]
    nofun

/-- Comments alone give no rows. -/
theorem rowsFrom_harmless {lines : List (List Char)}
    (harmless : ∀ line ∈ lines, Harmless readers line) {reader : Reader}
    (mode : reader.mode ≠ some .json) (filled : reader.separator ≠ []) :
    rowsFrom readers reader (lines.map (· ++ ['\n'])) = ([], false) := by
  induction lines generalizing reader with
  | nil => rfl
  | cons line lines inductionHypothesis =>
      rw [List.forall_mem_cons] at harmless
      have read := @readLine_comment readers reader line mode harmless.1.isLine
        harmless.1.comment
      obtain ⟨next, comment, keeps, tsv⟩ : ∃ next, readComment readers
          { reader with mode := some .tsv } line = some next ∧ next.separator ≠ [] ∧
            next.mode = some .tsv := by
        rw [readComment]
        by_cases separator : startsWith line "#separator" = true
        · rw [if_pos separator]
          match found : cut [' '] line with
          | none => exact ⟨_, rfl, filled, rfl⟩
          | some (front, raw) =>
              exact ⟨_, rfl, harmless.1.separator separator front raw found, rfl⟩
        · rw [if_neg separator]
          by_cases fields : startsWith line "#fields" = true
          · rw [if_pos fields, split, if_neg filled]
            exact ⟨_, rfl, filled, rfl⟩
          · rw [if_neg fields]
            exact ⟨_, rfl, filled, rfl⟩
      rw [comment, Option.map_some] at read
      rw [List.map_cons, rowsFrom_of_readLine read, inductionHypothesis harmless.2 (by
        rw [tsv]
        decide) keeps]
      rfl

theorem readComment_mode {reader next : Reader} {line : List Char}
    (read : readComment readers reader line = some next) : next.mode = reader.mode := by
  rw [readComment] at read
  split at read
  · split at read <;> cases read <;> rfl
  · split at read
    · obtain ⟨parts, -, rfl⟩ := Option.map_eq_some_iff.mp read
      rfl
    · cases read
      rfl

theorem readLine_row {reader : Reader} {line : List Char} (mode : reader.mode = some .tsv)
    (isLine : IsLine line) (row : startsWith line "#" = false) :
    readLine readers reader (line ++ ['\n']) =
      match reader.fields with
      | none => some (reader, none)
      | some fields => (split reader.separator line).map fun cols =>
          (reader, some (rowOf fields cols)) := by
  obtain ⟨_, separator, fields⟩ := reader
  cases mode
  rw [readLine, isLine.chomp]
  simp only [Option.getD_some]
  rw [if_neg isLine.filled, readFilled, if_neg (by simp)]
  refine (if_neg (by rw [row]; decide)).trans ?_
  cases fields <;> rfl

/-- In columns every row is a line that is no comment. -/
theorem length_rowsFrom_le {lines : List (List Char)}
    (isLine : ∀ line ∈ lines, IsLine line)
    {reader : Reader} (mode : reader.mode = some .tsv ∨ reader.mode ≠ some .json ∧
      ∀ line ∈ lines.head?, startsWith line "#" = true) :
    (rowsFrom readers reader (lines.map (· ++ ['\n']))).1.length ≤
      (lines.filter fun line => !startsWith line "#").length := by
  induction lines generalizing reader with
  | nil => exact Nat.zero_le _
  | cons line lines inductionHypothesis =>
      rw [List.forall_mem_cons] at isLine
      rw [List.map_cons, rowsFrom]
      match read : readLine readers reader (line ++ ['\n']) with
      | none => exact Nat.zero_le _
      | some (next, row) =>
          simp only [List.length_append]
          by_cases comment : startsWith line "#" = true
          · have notJson : reader.mode ≠ some .json := by
              rcases mode with tsv | other
              · rw [tsv]
                decide
              · exact other.1
            rw [readLine_comment notJson isLine.1 comment] at read
            obtain ⟨inner, here, same⟩ := Option.map_eq_some_iff.mp read
            cases same
            rw [List.filter_cons_of_neg (by simp [comment])]
            have later := inductionHypothesis isLine.2 (.inl (readComment_mode here))
            simpa using later
          · have tsv : reader.mode = some .tsv := by
              rcases mode with tsv | ⟨-, first⟩
              · exact tsv
              · exact absurd (first line rfl) comment
            rw [readLine_row tsv isLine.1 (by simpa using comment)] at read
            have same : next = reader := by
              split at read
              · cases read
                rfl
              · obtain ⟨cols, -, same⟩ := Option.map_eq_some_iff.mp read
                cases same
                rfl
            rw [List.filter_cons_of_pos (by simp [comment]), List.length_cons, same]
            have later := inductionHypothesis isLine.2 (.inl tsv)
            have one : row.toList.length ≤ 1 := by cases row <;> simp
            omega

/-! ### Files -/

namespace Layout.Fits

variable {layout : Layout} {records : List Record}

theorem isLine_intercalate {separator : Char}
    (newline : separator ≠ '\n' ∧ separator ≠ '\r')
    {cells : List (List Char)} (filled : cells ≠ [])
    (isLine : ∀ cell ∈ cells, IsLine cell) :
    IsLine ([separator].intercalate cells) := by
  induction cells with
  | nil => exact absurd rfl filled
  | cons cell cells inductionHypothesis =>
      rw [List.forall_mem_cons] at isLine
      cases cells with
      | nil =>
          rw [List.intercalate_singleton]
          exact isLine.1
      | cons other cells =>
          have later := inductionHypothesis (List.cons_ne_nil _ _) isLine.2
          rw [List.intercalate_cons_cons]
          refine ⟨by simp, ?_, ?_⟩
          · simp only [List.mem_append, List.mem_singleton, not_or]
            exact ⟨⟨isLine.1.newline, newline.1.symm⟩, later.newline⟩
          · simp only [List.mem_append, List.mem_singleton, not_or]
            exact ⟨⟨isLine.1.carriage, newline.2.symm⟩, later.carriage⟩

theorem isLine_row (fits : layout.Fits readers records) {record : Record}
    (member : record ∈ records) : IsLine (layout.row record) := by
  refine isLine_intercalate fits.newline (by simpa using fits.filled) ?_
  rw [List.forall_mem_map]
  exact fun name inside => (fits.values record member name inside).2

/-- The line that names the columns. -/
def fieldsLine (layout : Layout) : List Char :=
  [layout.separator].intercalate ("#fields".toList :: layout.columns)

/-- The comment with the names. -/
theorem startsWith_fieldsLine (layout : Layout) :
    startsWith (fieldsLine layout) "#fields" = true := by
  rw [startsWith_iff, fieldsLine]
  cases layout.columns with
  | nil =>
      rw [List.intercalate_singleton]
  | cons name columns =>
      rw [List.intercalate_cons_cons, List.append_assoc]
      exact List.prefix_append _ _

theorem startsWith_comment {line : List Char}
    (fields : startsWith line "#fields" = true) :
    startsWith line "#" = true := by
  rw [startsWith_iff] at fields ⊢
  exact List.IsPrefix.trans (by decide) fields

/-- The reader behind the header. -/
def reader (layout : Layout) : Reader :=
  ⟨some .tsv, [layout.separator], some layout.columns⟩

theorem separatorLine {escape : List Char} (isLine : IsLine escape) :
    IsLine ("#separator ".toList ++ escape) ∧
      startsWith ("#separator ".toList ++ escape) "#" = true ∧
        startsWith ("#separator ".toList ++ escape) "#separator" = true ∧
          cut [' '] ("#separator ".toList ++ escape) =
            some ("#separator".toList, escape) := by
  have word : '\n' ∉ "#separator ".toList ∧ '\r' ∉ "#separator ".toList := by decide
  refine ⟨⟨?_, ?_, ?_⟩, ?_, ?_, ?_⟩
  · intro empty
    exact isLine.filled (List.append_eq_nil_iff.mp empty).2
  · rw [List.mem_append, not_or]
    exact ⟨word.1, isLine.newline⟩
  · rw [List.mem_append, not_or]
    exact ⟨word.2, isLine.carriage⟩
  · rw [startsWith_iff]
    exact List.IsPrefix.trans (by decide) (List.prefix_append _ _)
  · rw [startsWith_iff]
    exact List.IsPrefix.trans (by decide) (List.prefix_append _ _)
  · rw [show "#separator ".toList = "#separator".toList ++ [' '] by decide,
      List.append_assoc, cut_append (by decide), List.singleton_append, cut,
      if_pos (by simp)]
    simp

/-- The reader behind the header of the separator. -/
theorem rowsFrom_separator (fits : layout.Fits readers records)
    (handle : List (List Char)) :
    ∃ next : Reader, next.mode ≠ some .json ∧ next.separator = [layout.separator] ∧
      rowsFrom readers .start ((layout.escape.toList.map fun escape =>
        "#separator ".toList ++ escape).map (· ++ ['\n']) ++ handle) =
          rowsFrom readers next handle := by
  rcases fits.escape with ⟨absent, tab⟩ | ⟨escape, present, isLine, stripped, decoded⟩
  · refine ⟨.start, nofun, by rw [tab]; rfl, ?_⟩
    rw [absent]
    rfl
  · obtain ⟨line, comment, separator, parts⟩ := separatorLine isLine
    have read := @readLine_comment readers .start _ nofun line comment
    rw [readComment, if_pos separator, parts] at read
    simp only at read
    rw [stripped, decodeSeparator, decoded, Option.map_some] at read
    refine ⟨⟨some .tsv, [layout.separator], none⟩, nofun, rfl, ?_⟩
    rw [present]
    change rowsFrom readers .start
      (("#separator ".toList ++ escape ++ ['\n']) :: handle) = _
    rw [rowsFrom_of_readLine read]
    rfl

theorem rowsFrom_header (fits : layout.Fits readers records) (handle : List (List Char)) :
    rowsFrom readers .start (layout.header.map (· ++ ['\n']) ++ handle) =
      rowsFrom readers (reader layout) handle := by
  have remark : ∀ lines ∈ [layout.before, layout.between], ∀ line ∈ lines,
      IsRemark line := by
    simp only [List.forall_mem_cons]
    exact ⟨fun line member => fits.remarks line (by simp [member]),
      fun line member => fits.remarks line (by simp [member]), nofun⟩
  rw [Layout.header]
  simp only [List.map_append, List.append_assoc]
  obtain ⟨first, mode, separator, here⟩ := fits.rowsFrom_separator
    (layout.before.map (· ++ ['\n']) ++ ([fieldsLine layout].map (· ++ ['\n']) ++
      (layout.between.map (· ++ ['\n']) ++ handle)))
  obtain ⟨second, kept, there⟩ := rowsFrom_remarks (remark layout.before (by simp)) mode
    ([fieldsLine layout].map (· ++ ['\n']) ++
      (layout.between.map (· ++ ['\n']) ++ handle))
  have state : second.mode ≠ some .json ∧ second.separator = [layout.separator] := by
    rcases kept with rfl | rfl
    · exact ⟨mode, separator⟩
    · exact ⟨nofun, separator⟩
  have fields := startsWith_fieldsLine layout
  have isLine : IsLine (fieldsLine layout) :=
    isLine_intercalate fits.newline (List.cons_ne_nil _ _) fun name member =>
      (fits.names name member).2
  have read := @readLine_comment readers second _ state.1 isLine
    (startsWith_comment fields)
  rw [readComment, if_neg (by rw [not_startsWith fields (by decide)]; decide),
    if_pos fields] at read
  simp only at read
  rw [state.2, fieldsLine, split_intercalate (List.cons_ne_nil _ _) fun name member =>
    (fits.names name member).1, Option.map_some, Option.map_some] at read
  obtain ⟨third, same, last⟩ :=
    @rowsFrom_remarks readers _ (remark layout.between (by simp))
    (reader layout) nofun handle
  have tsv : third = reader layout := by
    rcases same with rfl | rfl <;> rfl
  rw [tsv] at last
  refine here.trans (there.trans ?_)
  rw [List.map_singleton, List.singleton_append, fieldsLine, rowsFrom_of_readLine read]
  exact last

theorem rowsFrom_rows (fits : layout.Fits readers records) {some_ : List Record}
    (within : some_ ⊆ records)
    (rows : ∀ record ∈ some_, startsWith (layout.row record) "#" = false)
    (handle : List (List Char)) :
    rowsFrom readers (reader layout)
    (some_.map (fun record => layout.row record ++ ['\n']) ++
      handle) = (some_.map (columnRow layout.columns) ++
        (rowsFrom readers (reader layout) handle).1,
          (rowsFrom readers (reader layout) handle).2) := by
  induction some_ with
  | nil => rfl
  | cons record some_ inductionHypothesis =>
      rw [List.cons_subset] at within
      rw [List.forall_mem_cons] at rows
      have cells : split [layout.separator] (layout.row record) =
          some (layout.columns.map fun name =>
            (record (String.ofList name)).written) := by
        refine split_intercalate (by simpa using fits.filled) ?_
        rw [List.forall_mem_map]
        exact fun name inside => (fits.values record within.1 name inside).1
      have read : readLine readers (reader layout) (layout.row record ++ ['\n']) =
          some (reader layout, some (columnRow layout.columns record)) := by
        rw [readLine_row rfl (fits.isLine_row within.1) rows.1]
        change (split [layout.separator] (layout.row record)).map _ = _
        rw [cells]
        rfl
      rw [List.map_cons, List.cons_append, rowsFrom_of_readLine read,
        inductionHypothesis within.2 rows.2]
      rfl

theorem header_comments (fits : layout.Fits readers records) :
    ∀ line ∈ layout.header, Harmless readers line := by
  have remark : ∀ line ∈ layout.before ++ layout.between, IsRemark line :=
    fun line member => fits.remarks line (List.mem_append_left _ member)
  intro line member
  simp only [Layout.header, List.mem_append, List.mem_singleton, List.mem_map,
    Option.mem_toList] at member
  rcases member with ((⟨escape, present, rfl⟩ | before) | rfl) | between
  · rcases fits.escape with ⟨absent, -⟩ | ⟨other, present', isLine, stripped, decoded⟩
    · rw [absent] at present
      cases present
    · obtain rfl : other = escape := Option.some.inj (present'.symm.trans present)
      obtain ⟨line, comment, -, parts⟩ := separatorLine isLine
      refine ⟨line, comment, fun _ front raw found => ?_⟩
      rw [parts] at found
      cases found
      rw [stripped, decodeSeparator, decoded]
      exact List.cons_ne_nil _ _
  · exact (remark line (List.mem_append_left _ before)).harmless
  · have fields := startsWith_fieldsLine layout
    refine ⟨isLine_intercalate fits.newline (List.cons_ne_nil _ _) fun name member =>
      (fits.names name member).2, startsWith_comment fields, ?_⟩
    intro separator
    change startsWith (fieldsLine layout) "#separator" = true at separator
    rw [not_startsWith fields (by decide)] at separator
    cases separator
  · exact (remark line (List.mem_append_right _ between)).harmless

theorem behind_comments (fits : layout.Fits readers records) :
    ∀ line ∈ layout.behind, Harmless readers line := fun line member =>
  (fits.remarks line (List.mem_append_right _ member)).harmless

/-- The rows of a file in columns, if it is not too long and no
row looks like a comment. -/
theorem iterRows_file (fits : layout.Fits readers records)
    (fit : records = [] ∨ layout.header.length + records.length ≤ maxLinesPerFile)
    (rows : ∀ record ∈ records, startsWith (layout.row record) "#" = false) :
    iterRows readers (layout.file records) =
      (records.map (columnRow layout.columns), false) := by
  rw [iterRows, Layout.file, Layout.lines, ← List.map_take]
  rcases fit with rfl | fit
  · refine rowsFrom_harmless (fun line member => ?_) nofun (List.cons_ne_nil _ _)
    have inside := List.mem_of_mem_take member
    rw [List.map_nil, List.append_nil] at inside
    rcases List.mem_append.mp inside with header | behind
    · exact fits.header_comments line header
    · exact fits.behind_comments line behind
  · rw [List.append_assoc, List.take_append, List.take_of_length_le (by omega),
      List.take_append, List.take_of_length_le (by rw [List.length_map]; omega),
      List.map_append, List.map_append, fits.rowsFrom_header, List.map_map]
    have later := fits.rowsFrom_rows (List.Subset.refl records) rows
    have last : ∀ count, rowsFrom readers (reader layout)
        ((layout.behind.take count).map (· ++ ['\n'])) = ([], false) := by
      intro count
      exact rowsFrom_harmless (fun line member => fits.behind_comments line
        (List.mem_of_mem_take member)) nofun (List.cons_ne_nil _ _)
    refine (later _).trans ?_
    rw [last, List.append_nil]

/-- The rows of a file in columns are fewer than its records if one looks like a comment,
or the file is too long. -/
theorem length_iterRows_file (fits : layout.Fits readers records) :
    (iterRows readers (layout.file records)).1.length ≤
      (((records.map layout.row).take (maxLinesPerFile - layout.header.length)).filter
        fun line => !startsWith line "#").length := by
  have comments : ∀ lines : List (List Char), (∀ line ∈ lines, Harmless readers line) →
      (lines.filter fun line => !startsWith line "#") = [] := by
    intro lines harmless
    rw [List.filter_eq_nil_iff]
    intro line member
    rw [(harmless line member).comment]
    decide
  have isLine : ∀ line ∈ (layout.lines records).take maxLinesPerFile, IsLine line := by
    intro line member
    have inside := List.mem_of_mem_take member
    rw [Layout.lines, List.mem_append, List.mem_append] at inside
    rcases inside with (header | row) | behind
    · exact (fits.header_comments line header).isLine
    · obtain ⟨record, present, rfl⟩ := List.mem_map.mp row
      exact fits.isLine_row present
    · exact (fits.behind_comments line behind).isLine
  have bound := @length_rowsFrom_le readers _ isLine .start (.inr ⟨nofun, ?_⟩)
  · rw [iterRows, Layout.file, ← List.map_take]
    refine bound.trans ?_
    rw [Layout.lines, List.append_assoc, List.take_append, List.take_append,
      List.filter_append, List.filter_append, comments _ fun line member =>
        fits.header_comments line (List.mem_of_mem_take member),
      comments _ fun line member =>
        fits.behind_comments line (List.mem_of_mem_take member),
      List.nil_append, List.append_nil]
  · intro line first
    have header : line ∈ layout.header := by
      have member : fieldsLine layout ∈ layout.header := by
        simp [Layout.header, fieldsLine]
      obtain ⟨head, tail, built⟩ := List.exists_cons_of_ne_nil (List.ne_nil_of_mem member)
      rw [List.head?_take, if_neg (by decide), Layout.lines, built] at first
      rw [built, ← Option.some.inj first]
      exact List.mem_cons_self
    exact (fits.header_comments line header).comment

end Layout.Fits

theorem readLine_object {reader : Reader} {record : Record} {line : List Char}
    (mode : reader.mode ≠ some .tsv) (object : IsObject readers record line) :
    ∃ row, readLine readers reader (line ++ ['\n']) =
        some ({ reader with mode := some .json }, some row) ∧
      ∀ name, cell readers row name = (record name).member readers := by
  obtain ⟨members, loaded, same⟩ := object.loads
  have json : reader.mode.getD (if opensObject line then .json else .tsv) = .json := by
    rw [object.opens]
    match found : reader.mode with
    | none => rfl
    | some .json => rfl
    | some .tsv => exact absurd found mode
  refine ⟨Dict.ofList members, ?_, cell_object same⟩
  rw [readLine, object.isLine.chomp]
  simp only
  rw [if_neg object.isLine.filled, json, readFilled, if_pos rfl, loaded]

theorem rowsFrom_json {records : List Record} {file : List (List Char)}
    (isJson : IsJsonFile readers records file) {reader : Reader}
    (mode : reader.mode ≠ some .tsv) :
    ∃ rows, rowsFrom readers reader file = (rows, false) ∧ List.Forall₂ (fun record row =>
      ∀ name, cell readers row name = (record name).member readers) records rows := by
  induction isJson generalizing reader with
  | nil => exact ⟨[], rfl, .nil⟩
  | cons line _ inductionHypothesis =>
      obtain ⟨text, rfl, object⟩ := line
      obtain ⟨row, read, same⟩ := readLine_object mode object
      obtain ⟨rows, later, cells⟩ :=
        @inductionHypothesis { reader with mode := some .json } nofun
      exact ⟨row :: rows, by rw [rowsFrom_of_readLine read, later]; rfl, .cons same cells⟩

/-- The rows of a file of objects. -/
theorem iterRows_json {records : List Record} {file : List (List Char)}
    (isJson : IsJsonFile readers records file) :
    ∃ rows, iterRows readers file = (rows, false) ∧ List.Forall₂ (fun record row =>
      ∀ name, cell readers row name = (record name).member readers)
        (records.take maxLinesPerFile) rows :=
  rowsFrom_json (List.forall₂_take maxLinesPerFile isJson) nofun

end Cells

end FsZeekLogs
end Probes
end PqcScan
