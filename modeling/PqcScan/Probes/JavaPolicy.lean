import PqcScan.Core.Names
import PqcScan.Library.Emission
import PqcScan.Library.Patterns
import PqcScan.Probes.CipherLists
import PqcScan.Python.Files
import PqcScan.Python.Lines
import Mathlib.Logic.Relation

/-!
# The policy of a JVM

`host_java_security.py`: the entries of a `java.security` file, with values folded over
several lines, and the gaps in the list of disabled algorithms.
-/

namespace PqcScan
namespace Probes

open Library Python PqcScan.Core

/-! ## Logical lines -/

/-- `_has_continuation`. -/
def hasContinuation (line : List Char) : Bool :=
  (line.reverse.takeWhile (· == '\\')).length % 2 == 1

/-- `str.lstrip`. -/
def lstrip (text : List Char) : List Char := text.dropWhile isSpace

/-- `str.rstrip` of one character. -/
def rstripChar (mark : Char) (text : List Char) : List Char :=
  (lstripChar mark text.reverse).reverse

/-- A line that begins no entry: it is blank or a comment. -/
def isSkipped (line : List Char) : Bool :=
  match lstrip line with
  | [] => true
  | first :: _ => first == '#' || first == '!'

/-- What the loop of `_logical_lines` keeps: the parts of the open
line, and the lines done. -/
structure Folding where
  acc : List (List Char)
  result : List (List Char)

/-- The body of the loop behind the test for blank lines and comments. -/
def takeLine (state : Folding) (line : List Char) : Folding :=
  if hasContinuation line then ⟨state.acc ++ [line.dropLast], state.result⟩
  else ⟨[], state.result ++ [(state.acc ++ [line]).flatten]⟩

/-- The body of the loop of `_logical_lines`. -/
def foldLine (state : Folding) (raw : List Char) : Folding :=
  let line := rstripChar '\r' raw
  if state.acc ≠ [] then takeLine state (lstrip line)
  else if isSkipped line then state
  else takeLine state line

/-- `_logical_lines` of the physical lines. -/
def logicalLines (lines : List (List Char)) : List (List Char) :=
  let state := lines.foldl foldLine ⟨[], []⟩
  if state.acc ≠ [] then state.result ++ [state.acc.flatten] else state.result

/-! ## Entries -/

/-- What ends the key of an entry. -/
def isSeparator (char : Char) : Bool := char == '=' || char == ':'

/-- `_split_kv`. -/
def splitKv (line : List Char) : Option (List Char × List Char) :=
  if line.any isSeparator then
    some (strip (line.takeWhile fun char => !isSeparator char),
      strip ((line.dropWhile fun char => !isSeparator char).drop 1))
  else none

/-- `_tokens`. -/
def policyTokens (value : List Char) : List (List Char) :=
  (value.splitOn ',').filterMap fun part => if strip part = [] then none
    else some (strip part)

/-- `_PROP_TLS`. -/
def propTls : String := "jdk.tls.disabledAlgorithms"

/-- `_WANTED_PROPS`. -/
def wantedProps : List String :=
  [propTls, "jdk.certpath.disabledAlgorithms", "jdk.jar.disabledAlgorithms",
    "jdk.security.legacyAlgorithms"]

/-- The body of the loop of `_parse`. -/
def takeEntry (out : Dict (List Char) (List (List Char))) (line : List Char) :
    Dict (List Char) (List (List Char)) :=
  match splitKv line with
  | none => out
  | some (key, value) => if oneOf key wantedProps then out.set key (policyTokens value)
      else out

/-- `_parse`. -/
def parsePolicy (text : List Char) : Dict (List Char) (List (List Char)) :=
  (logicalLines (splitLines text)).foldl takeEntry Dict.empty

/-! ## Gaps -/

/-- What a gap finding says, but for the list that it echoes. -/
structure Gap where
  algorithm : String
  classification : Classification
  severity : Severity
  title : String
  note : String
  confidence : Option String
  deriving DecidableEq

/-- The finding of a gap. -/
def Gap.toFinding (gap : Gap) (path : Path) (disabled : List (List Char))
    (now : DateTime) :
    Finding where
  probeId := "host.java.security"
  algorithm := gap.algorithm
  classification := gap.classification
  severity := gap.severity
  title := gap.title ++ " (" ++ path.str ++ ")"
  evidence := Dict.ofList ([("path", .str path.str), ("property", .str propTls),
    ("value", .array (disabled.map fun token => .str (String.ofList token))),
    ("note", .str gap.note)] ++ (gap.confidence.map fun text =>
      ("confidence", .str text)).toList)
  createdAt := now

/-- `_EXPECTED_PROTOCOLS`. -/
def expectedProtocols : List (String × String) :=
  [("TLSV1", "TLSv1.0"), ("TLSV1.1", "TLSv1.1")]

/-- `_EXPECTED_WEAK`. -/
def expectedWeak : List (String × String) :=
  [("RC4", "RC4"), ("3DES", "3DES"), ("MD5", "MD5")]

/-- `_KEYSIZE_FLOORS`. -/
def keysizeFloors : List (String × Nat) := [("RSA", 2048), ("DH", 2048), ("EC", 224)]

/-- A literal. -/
def exactly (text : String) : List (Library.Piece Char) :=
  text.toList.map fun char => .one (· == char)

section Gaps

variable (tables : CaseTables) (isWord : Char → Bool)

/-- What `_KEYSIZE_RE` matches behind the family and before the digits. -/
def keysizeWord : List (Library.Piece Char) :=
  [.one isSpace, .many isSpace] ++ (exactly "KEYSIZE" ++
    [.many isSpace, .one (· == '<'), .many isSpace])

/-- `_KEYSIZE_RE` for one of its families. -/
def keysizeOf (family : String) : Matcher Char (String × Nat × List Char) :=
  Matcher.guarded isWord <| Matcher.tagged family <|
    Matcher.capture (exactly family ++ keysizeWord)
      [.one tables.isDigit, .many tables.isDigit] []

/-- `_KEYSIZE_RE`. -/
def keysizeRe : Matcher Char (String × Nat × List Char) :=
  Matcher.first (["RSA", "DH", "DSA", "EC"].map (keysizeOf tables isWord))

/-- The constraints that `_KEYSIZE_RE.finditer` finds: families and digits. -/
def constraints (text : List Char) : List (String × List Char) :=
  ((keysizeRe tables isWord).finditer text).map fun found =>
    (found.detail.1, found.detail.2.2)

/-- `" ".join(disabled_tls).upper()`. -/
def joinTokens (disabled : List (List Char)) : List Char :=
  tables.upper ([' '].intercalate disabled)

/-- `floors`; nothing stands for a `ValueError`. -/
def floors (disabled : List (List Char)) : Option (Dict String Nat) :=
  ((constraints tables isWord (joinTokens tables disabled)).mapM fun found =>
    (tables.intOf found.2).map fun size => (found.1, size)).map Dict.ofList

/-- A protocol that is not disabled. -/
def protocolGap (disabled : List (List Char)) (expected : String × String) : List Gap :=
  if disabled.any fun token => tables.upper token == expected.1.toList then []
  else [{ algorithm := expected.2
          classification := .tinggi
          severity := .high
          title := expected.2 ++ " not disabled in JVM policy"
          note := expected.2 ++ " is not present in " ++ propTls ++
            "; the JVM may negotiate it."
          confidence := none }]

/-- A primitive that is not disabled. -/
def weakGap (disabled : List (List Char)) (expected : String × String) :
    Option (List Gap) :=
  if contains (joinTokens tables disabled) expected.1 then some []
  else (tables.classify expected.2.toList).map fun cls =>
    [{ algorithm := expected.2
       classification := cls
       severity := sevFor cls
       title := expected.2 ++ " not disabled in JVM policy"
       note := expected.2 ++ " is not constrained by " ++ propTls ++ "."
       confidence := none }]

/-- The gap of a family, given its floor. -/
def floorGap (expected : String × Nat) (found : Option Nat) : List Gap :=
  match found with
  | none =>
      [{ algorithm := expected.1
         classification := .sederhana
         severity := .med
         title := "No " ++ expected.1 ++ " keySize floor in JVM policy"
         note := propTls ++ " has no '" ++ expected.1 ++
           " keySize < N' constraint; weak " ++
           expected.1 ++ " key sizes (< " ++ toString expected.2 ++ ") are not refused."
         confidence := some "medium" }]
  | some size =>
      if size < expected.2 then
        [{ algorithm := expected.1
           classification := .tinggi
           severity := .high
           title := expected.1 ++ " keySize floor too low in JVM policy"
           note := "policy disables " ++ expected.1 ++ " keySize < " ++ toString size ++
             ", but the safe floor is " ++ toString expected.2 ++ "; sizes " ++
             toString size ++
             ".." ++ toString (expected.2 - 1) ++ " stay enabled."
           confidence := none }]
      else []

/-- The gaps of the key sizes. -/
def floorGaps (disabled : List (List Char)) : Option (List Gap) :=
  (floors tables isWord disabled).map fun sizes =>
    keysizeFloors.flatMap fun expected => floorGap expected (sizes.get? expected.1)

/-- The steps of `_emit_gaps`; nothing stands for a `ValueError`. -/
def gapSteps (disabled : List (List Char)) : List (Option (List Gap)) :=
  expectedProtocols.map (fun expected => some (protocolGap tables disabled expected)) ++
    expectedWeak.map (weakGap tables disabled) ++ [floorGaps tables isWord disabled]

/-- `_emit_gaps`, as far as it comes. -/
def emitGaps (disabled : List (List Char)) : List Gap :=
  reported id (gapSteps tables isWord disabled)

end Gaps

/-! ## Folded values -/

/-- A line without the ends of lines. -/
def Unbroken (line : List Char) : Prop := ∀ char ∈ line, isLineBreak char = false

/-- Lines that end between two entries. -/
def Closed (lines : List (List Char)) : Prop := (lines.foldl foldLine ⟨[], []⟩).acc = []

/-- The lines say the same in another layout: a line of an entry is folded where a value
may be folded, before a character that is not white space and not behind an escaping
backslash, or a comment or a blank line is inserted between two entries. -/
inductive Relaid : List (List Char) → List (List Char) → Prop
  | fold (front back : List (List Char)) {head tail space : List Char}
      (unescaped : hasContinuation head = false) (visible : lstrip tail = tail)
      (blank : ∀ char ∈ space, isSpace char = true) (unbroken : Unbroken space)
      (entry : Closed front → isSkipped (head ++ tail) = false) :
      Relaid (front ++ (head ++ tail) :: back)
        (front ++ (head ++ ['\\']) :: (space ++ tail) :: back)
  | insert (front back : List (List Char)) {line : List Char} (skipped :
      isSkipped line = true)
      (unbroken : Unbroken line) (closed : Closed front) :
      Relaid (front ++ back) (front ++ line :: back)

/-- The open line, and the lines done. -/
structure Reading where
  pending : Option (List Char)
  done : List (List Char)

/-- The loop state as its open line and the lines done. -/
def Folding.view (state : Folding) : Reading :=
  ⟨if state.acc = [] then none else some state.acc.flatten, state.result⟩

/-- The body of the loop on the view. -/
def Reading.take (reading : Reading) (line : List Char) : Reading :=
  if hasContinuation line then
    ⟨some (reading.pending.getD [] ++ line.dropLast), reading.done⟩
  else ⟨none, reading.done ++ [reading.pending.getD [] ++ line]⟩

/-- One line. -/
def Reading.step (reading : Reading) (line : List Char) : Reading :=
  if reading.pending.isSome then reading.take (lstrip line)
  else if isSkipped line then reading
  else reading.take line

theorem view_takeLine (state : Folding) (line : List Char) :
    (takeLine state line).view = state.view.take line := by
  have front : state.view.pending.getD [] = state.acc.flatten := by
    rw [Folding.view]
    by_cases none : state.acc = []
    · simp [none]
    · simp [none]
  rw [takeLine, Reading.take, front]
  split
  · simp [Folding.view]
  · simp [Folding.view]

theorem rstripChar_of_unbroken {line : List Char} (unbroken : Unbroken line) :
    rstripChar '\r' line = line := by
  have kept : lstripChar '\r' line.reverse = line.reverse := by
    rw [lstripChar]
    cases ends : line.reverse with
    | nil => rfl
    | cons last rest =>
        have plain := unbroken last
          (List.mem_reverse.mp (by rw [ends]; exact List.mem_cons_self))
        apply List.dropWhile_cons_of_neg
        rw [beq_iff_eq]
        rintro rfl
        exact absurd plain (by decide)
  rw [rstripChar, kept, List.reverse_reverse]

theorem view_foldLine (state : Folding) {line : List Char} (unbroken : Unbroken line) :
    (foldLine state line).view = state.view.step line := by
  rw [foldLine, rstripChar_of_unbroken unbroken, Reading.step]
  by_cases none : state.acc = []
  · have pending : state.view.pending = .none := by rw [Folding.view, if_pos none]
    rw [if_neg (not_not.mpr none), pending]
    by_cases skipped : isSkipped line = true
    · simp [skipped]
    · simp [skipped, view_takeLine]
  · have pending : state.view.pending = some state.acc.flatten := by
      rw [Folding.view, if_neg none]
    rw [if_pos none, pending, view_takeLine]
    rfl

theorem view_foldl (state : Folding) {lines : List (List Char)}
    (unbroken : ∀ line ∈ lines, Unbroken line) :
    (lines.foldl foldLine state).view = lines.foldl Reading.step state.view := by
  induction lines generalizing state with
  | nil => rfl
  | cons line lines inductionHypothesis =>
      rw [List.forall_mem_cons] at unbroken
      rw [List.foldl_cons, List.foldl_cons, inductionHypothesis _ unbroken.2,
        view_foldLine state unbroken.1]

theorem logicalLines_eq {lines : List (List Char)}
    (unbroken : ∀ line ∈ lines, Unbroken line) :
    logicalLines lines =
      (lines.foldl Reading.step ⟨none, []⟩).done ++
        (lines.foldl Reading.step ⟨none, []⟩).pending.toList := by
  have view := view_foldl ⟨[], []⟩ unbroken
  have start : (⟨[], []⟩ : Folding).view = ⟨none, []⟩ := rfl
  rw [start] at view
  rw [← view, logicalLines, Folding.view]
  by_cases none : (lines.foldl foldLine ⟨[], []⟩).acc = []
  · simp [none]
  · simp [none]

/-! ### One line in two -/

theorem lstrip_append (head : List Char) {tail : List Char}
    (visible : lstrip tail = tail) :
    lstrip (head ++ tail) = lstrip head ++ tail := by
  rw [lstrip, List.dropWhile_append]
  split
  · next empty =>
    rw [List.isEmpty_iff] at empty
    rw [lstrip, empty]
    exact visible
  · rfl

/-- Leading white space does not matter for a continuation. -/
theorem hasContinuation_spaced {space : List Char}
    (blank : ∀ char ∈ space, isSpace char = true)
    (line : List Char) : hasContinuation (space ++ line) = hasContinuation line := by
  have none : space.reverse.takeWhile (· == '\\') = [] := by
    cases ends : space.reverse with
    | nil => rfl
    | cons last rest =>
        have spaced := blank last
          (List.mem_reverse.mp (by rw [ends]; exact List.mem_cons_self))
        apply List.takeWhile_cons_of_neg
        rw [beq_iff_eq]
        rintro rfl
        exact absurd spaced (by decide)
  rw [hasContinuation, hasContinuation, List.reverse_append, List.takeWhile_append]
  split
  · next whole =>
    rw [none, List.append_nil, (List.takeWhile_prefix _).eq_of_length whole]
  · rfl

theorem hasContinuation_lstrip (line : List Char) :
    hasContinuation (lstrip line) = hasContinuation line := by
  have blank : ∀ char ∈ line.takeWhile isSpace, isSpace char = true :=
    fun char member => List.all_eq_true.mp List.all_takeWhile char member
  have split := hasContinuation_spaced blank (lstrip line)
  rwa [lstrip, List.takeWhile_append_dropWhile, eq_comm] at split

/-- Behind an even number of backslashes only the rest of the line counts. -/
theorem hasContinuation_append {head : List Char}
    (unescaped : hasContinuation head = false)
    (tail : List Char) : hasContinuation (head ++ tail) = hasContinuation tail := by
  rw [hasContinuation] at unescaped
  rw [hasContinuation, hasContinuation, List.reverse_append, List.takeWhile_append]
  split
  · next whole =>
    rw [List.length_append, whole]
    rw [beq_eq_false_iff_ne] at unescaped
    congr 1
    omega
  · rfl

theorem hasContinuation_fold {head : List Char}
    (unescaped : hasContinuation head = false) :
    hasContinuation (head ++ ['\\']) = true := by
  rw [hasContinuation_append unescaped]
  decide

theorem take_fold {head : List Char} (unescaped : hasContinuation head = false)
    (tail : List Char) (reading : Reading) :
    (reading.take (head ++ ['\\'])).take tail = reading.take (head ++ tail) := by
  have opened : reading.take (head ++ ['\\']) =
      ⟨some (reading.pending.getD [] ++ head), reading.done⟩ := by
    rw [Reading.take, if_pos (hasContinuation_fold unescaped), List.dropLast_concat]
  rw [opened, Reading.take, Reading.take, hasContinuation_append unescaped]
  by_cases folded : hasContinuation tail = true
  · have filled : tail ≠ [] := by
      rintro rfl
      exact absurd folded (by decide)
    rw [if_pos folded, if_pos folded, List.dropLast_append_of_ne_nil filled]
    simp
  · rw [if_neg folded, if_neg folded]
    simp

/-- The rest of an entry is no comment where the entry is none. -/
theorem isSkipped_fold {head tail : List Char} (visible : lstrip tail = tail)
    (entry : isSkipped (head ++ tail) = false) : isSkipped (head ++ ['\\']) = false := by
  rw [isSkipped, lstrip_append head visible] at entry
  rw [isSkipped, lstrip_append head (by decide)]
  cases lead : lstrip head with
  | nil => rfl
  | cons first rest =>
      rw [lead] at entry
      exact entry

/-- A folded line is read like the line. -/
theorem step_fold {head tail space : List Char} (unescaped : hasContinuation head = false)
    (visible : lstrip tail = tail) (blank : ∀ char ∈ space, isSpace char = true)
    (reading : Reading)
    (entry : reading.pending = none → isSkipped (head ++ tail) = false) :
    (reading.step (head ++ ['\\'])).step (space ++ tail) = reading.step
      (head ++ tail) := by
  have bare : lstrip (space ++ tail) = tail := by
    rw [lstrip, List.dropWhile_append_of_pos blank]
    exact visible
  have open_ : ∀ head, hasContinuation head = false →
      (reading.take (head ++ ['\\'])).step (space ++ tail) =
        reading.take (head ++ tail) := by
    intro head unescaped
    have pending : (reading.take (head ++ ['\\'])).pending.isSome = true := by
      rw [Reading.take, if_pos (hasContinuation_fold unescaped)]
      rfl
    rw [Reading.step, if_pos pending, bare, take_fold unescaped]
  rw [Reading.step.eq_def reading, Reading.step.eq_def reading]
  by_cases pending : reading.pending.isSome = true
  · rw [if_pos pending, if_pos pending, lstrip_append head visible,
      lstrip_append head (show lstrip ['\\'] = ['\\'] by decide)]
    exact open_ (lstrip head) ((hasContinuation_lstrip head).trans unescaped)
  · have none : reading.pending = none := by simpa using pending
    rw [if_neg pending, if_neg pending, entry none, isSkipped_fold visible (entry none)]
    exact open_ head unescaped

/-! ### Whole files -/

theorem closed_iff {front : List (List Char)} (unbroken : ∀ line ∈ front, Unbroken line) :
    Closed front ↔ (front.foldl Reading.step ⟨none, []⟩).pending = none := by
  have view := view_foldl ⟨[], []⟩ unbroken
  have start : (⟨[], []⟩ : Folding).view = ⟨none, []⟩ := rfl
  rw [start] at view
  rw [← view, Folding.view, Closed]
  by_cases closed : (front.foldl foldLine ⟨[], []⟩).acc = []
  · simp [closed]
  · simp [closed]

/-- Lines in another layout are read the same. -/
theorem Relaid.same {lines lines' : List (List Char)} (relaid : Relaid lines lines')
    (unbroken : ∀ line ∈ lines, Unbroken line) :
    (∀ line ∈ lines', Unbroken line) ∧
      lines'.foldl Reading.step ⟨none, []⟩ = lines.foldl Reading.step ⟨none, []⟩ := by
  cases relaid with
  | fold front back unescaped visible blank plain entry =>
      next head tail space =>
      rw [List.forall_mem_append, List.forall_mem_cons] at unbroken
      obtain ⟨front', line, back'⟩ := unbroken
      obtain ⟨head', tail'⟩ := List.forall_mem_append.mp line
      constructor
      · rw [List.forall_mem_append, List.forall_mem_cons, List.forall_mem_cons]
        refine ⟨front', ?_, List.forall_mem_append.mpr ⟨plain, tail'⟩, back'⟩
        exact List.forall_mem_append.mpr ⟨head', by decide⟩
      · rw [List.foldl_append, List.foldl_append, List.foldl_cons, List.foldl_cons,
          List.foldl_cons, step_fold unescaped visible blank]
        exact fun pending => entry ((closed_iff front').mpr pending)
  | insert front back skipped plain closed =>
      obtain ⟨front', back'⟩ := List.forall_mem_append.mp unbroken
      constructor
      · rw [List.forall_mem_append, List.forall_mem_cons]
        exact ⟨front', plain, back'⟩
      · rw [List.foldl_append, List.foldl_append, List.foldl_cons, Reading.step,
          (closed_iff front').mp closed, skipped]
        rfl

theorem logicalLines_relaid {lines lines' : List (List Char)}
    (relaid : Relation.ReflTransGen Relaid lines lines')
    (unbroken : ∀ line ∈ lines, Unbroken line) :
    logicalLines lines' = logicalLines lines := by
  have same : (∀ line ∈ lines', Unbroken line) ∧
      lines'.foldl Reading.step ⟨none, []⟩ = lines.foldl Reading.step ⟨none, []⟩ := by
    induction relaid with
    | refl => exact ⟨unbroken, rfl⟩
    | tail _ relaid inductionHypothesis =>
        obtain ⟨plain, read⟩ := relaid.same inductionHypothesis.1
        exact ⟨plain, read.trans inductionHypothesis.2⟩
  rw [logicalLines_eq same.1, logicalLines_eq unbroken, same.2]

/-- A policy in another layout is read the same. -/
theorem parsePolicy_relaid {text text' : List Char}
    (relaid : Relation.ReflTransGen Relaid (splitLines text) (splitLines text')) :
    parsePolicy text' = parsePolicy text := by
  rw [parsePolicy, parsePolicy, logicalLines_relaid relaid fun _ => unbroken_of_mem]

end Probes
end PqcScan
