import PqcScan.Probes.Terraform

/-!
# Blocks of a Terraform file

A file of top-level blocks.  The declarations of a file are those of its blocks, but the
slice that the scan reads for the last declaration of a block runs on to the next
declaration.  When it reads there what it reads in the block alone.
-/

namespace PqcScan
namespace Probes

open Library Python PqcScan.Core

/-! ## The patterns -/

/-- The fields that the scan looks for. -/
def fields : List String :=
  ["customer_master_key_spec", "ssl_policy", "algorithm", "rsa_bits",
    "key_algorithm", "key_type", "key_size"]

theorem fieldRe_stops : ∀ field ∈ fields, (fieldRe field).StopsAt '}' := by
  intro field member
  apply Matcher.StopsAt.guarded
  apply Matcher.capture_stops
  revert field
  decide

theorem fieldRe_fresh (field : String) (text : List Char) :
    fieldRe field (some '}') text = fieldRe field none text :=
  Matcher.guarded_of_not (by decide) (Matcher.capture_blind _ _ _) text

/-- A property of the alternatives of `_RESOURCE_RE`. -/
theorem forall_resourceOf {property : Matcher Char (Nat × List Char) → Prop}
    (holds : ∀ opening ∈ resourceOpenings, ∀ provider ∈ providers,
      property (resourceOf opening provider)) :
    ∀ matcher ∈ resourceOpenings.flatMap fun opening => providers.map
      (resourceOf opening),
      property matcher := by
  intro matcher member
  obtain ⟨opening, listed, inside⟩ := List.mem_flatMap.mp member
  obtain ⟨provider, named, rfl⟩ := List.mem_map.mp inside
  exact holds opening listed provider named

theorem resourceRe_stops : resourceRe.StopsAt '}' := by
  apply Matcher.StopsAt.first
  apply forall_resourceOf
  intro opening listed provider named
  apply Matcher.capture_stops
  revert opening provider
  decide

theorem resourceRe_blind : resourceRe.Blind :=
  Matcher.Blind.first (forall_resourceOf fun _ _ _ _ => Matcher.capture_blind _ _ _)

/-- No opening of a declaration starts with white space. -/
theorem opening_space {space : Char} (blank : isSpace space = true) :
    sameLetter 'r' space = false ∧ sameLetter 'd' space = false ∧
    (space == '"') = false := by
  revert space
  apply forall_char
  · decide
  · intro char lower _ blank
    have differs : ∀ letter, isSpace letter = false → (char == letter) = false := by
      intro letter visible
      rw [beq_eq_false_iff_ne]
      rintro rfl
      exact absurd (blank.symm.trans visible) (by decide)
    have letterR : 'r'.toLower = 'r' := by decide
    have letterD : 'd'.toLower = 'd' := by decide
    refine ⟨?_, ?_, differs '"' (by decide)⟩
    · rw [sameLetter, lower, letterR, differs 'r' (by decide)]
      rfl
    · rw [sameLetter, lower, letterD, differs 'd' (by decide)]
      rfl

/-- No declaration starts at white space. -/
theorem resourceRe_space {space : Char} (blank : isSpace space = true)
    (before : Option Char)
    (text : List Char) : resourceRe before (space :: text) = none := by
  obtain ⟨letterR, letterD, quote⟩ := opening_space blank
  have every : ∀ opening ∈ resourceOpenings, ∀ provider,
      resourceOf opening provider before (space :: text) = none := by
    simp only [resourceOpenings, List.forall_mem_cons]
    exact ⟨fun provider => Matcher.capture_refused letterR before text,
      fun provider => Matcher.capture_refused letterD before text,
      fun provider => @Matcher.capture_refused _ (· == '"') _ _ _ _ quote before text,
      nofun⟩
  rw [resourceRe, Matcher.first, List.findSome?_eq_none_iff]
  exact forall_resourceOf fun opening listed provider _ => every opening listed provider

/-! ## Files of blocks -/

/-- The types of top-level blocks. -/
def blockTypes : List String :=
  ["resource", "data", "variable", "module", "locals", "output"]

/-- The text of a top-level block: it begins with its type and ends
with its closing brace. -/
def IsBlock (text : List Char) : Prop :=
  ∃ keyword ∈ blockTypes, ∃ inner, text = keyword.toList ++ inner ++ ['}']

/-- A block of a file, with the white space before it. -/
structure Placed where
  gap : List Char
  text : List Char
  blank : ∀ char ∈ gap, isSpace char = true
  isBlock : IsBlock text

/-- The text of blocks one after the other. -/
def render (placed : List Placed) : List Char := placed.flatMap fun block =>
      block.gap ++ block.text

/-- A file of top-level blocks, each on lines of its own, with one of them singled out. -/
structure HclFile where
  front : List Placed
  block : Placed
  back : List Placed
  trail : List Char
  blank : ∀ char ∈ trail, isSpace char = true
  separated : ∀ placed ∈ (front ++ block :: back).tail, '\n' ∈ placed.gap

namespace HclFile

/-- What stands before the block. -/
def head (file : HclFile) : List Char := render file.front ++ file.block.gap

/-- What stands behind the block. -/
def rest (file : HclFile) : List Char := render file.back ++ file.trail

/-- The text of the file. -/
def text (file : HclFile) : List Char := file.head ++ file.block.text ++ file.rest

end HclFile

/-! ## Declarations of a block -/

/-- The declaration in a text that is longer at the front. -/
def Decl.shift (offset : Nat) (decl : Decl) : Decl :=
  { decl with start := offset + decl.start }

section Declarations

variable (tables : CaseTables)

theorem decls_shift (offset : Nat) (found : List (Found (Nat × List Char))) :
    (found.map (Found.shift offset)).map
        (fun found => (⟨found.start, tables.lower found.detail.2⟩ : Decl)) =
      (found.map fun found => (⟨found.start, tables.lower found.detail.2⟩ : Decl)).map
        (Decl.shift offset) := by
  rw [List.map_map, List.map_map]
  rfl

/-- Behind a closing brace the declarations start anew. -/
theorem decls_append {front : List Char} (closed : front.getLast? = some '}')
    (rest : List Char) :
    decls tables (front ++ rest) =
      decls tables front ++ (decls tables rest).map (Decl.shift front.length) := by
  obtain ⟨inner, rfl⟩ := List.getLast?_eq_some_iff.mp closed
  rw [decls, Matcher.finditer_stop resourceRe_stops (resourceRe_blind _), List.map_append,
    decls_shift]
  rfl

/-- White space has no declaration. -/
theorem decls_gap {gap : List Char} (blank : ∀ char ∈ gap, isSpace char = true)
    (text : List Char) :
    decls tables (gap ++ text) = (decls tables text).map (Decl.shift gap.length) := by
  rw [decls, Matcher.finditer_gap (fun before char member =>
    resourceRe_space (blank char member) before) (fun char _ => resourceRe_blind _),
      decls_shift]
  rfl

end Declarations

theorem IsBlock.closed {text : List Char} (isBlock : IsBlock text) :
    text.getLast? = some '}' := by
  obtain ⟨keyword, -, inner, rfl⟩ := isBlock
  exact List.getLast?_concat

/-- Blocks one after the other end with a brace. -/
theorem render_closed {placed : List Placed} (filled : placed ≠ []) :
    (render placed).getLast? = some '}' := by
  obtain ⟨front, last, rfl⟩ := (List.eq_nil_or_concat' placed).resolve_left filled
  rw [render, List.flatMap_append, List.flatMap_singleton, List.getLast?_append,
    List.getLast?_append, last.isBlock.closed]
  rfl

section Places

variable (tables : CaseTables) (file : HclFile)

theorem Decl.shift_shift (outer inner : Nat) (decls : List Decl) :
    (decls.map (Decl.shift inner)).map (Decl.shift outer) =
      decls.map (Decl.shift (outer + inner)) := by
  rw [List.map_map]
  apply List.map_congr_left
  intro decl _
  simp [Decl.shift, Nat.add_assoc]

theorem decls_head (rest : List Char) :
    decls tables (file.head ++ rest) =
      decls tables file.head ++ (decls tables rest).map
        (Decl.shift file.head.length) := by
  have gapFree : decls tables file.block.gap = [] := by
    have gap := decls_gap tables file.block.blank []
    rwa [List.append_nil] at gap
  have behind := decls_gap tables file.block.blank rest
  rw [HclFile.head]
  by_cases first : file.front = []
  · rw [first]
    change decls tables (file.block.gap ++ rest) = decls tables file.block.gap ++ _
    rw [behind, gapFree]
    rfl
  · have closed := render_closed first
    rw [List.append_assoc, decls_append tables closed, decls_append tables closed,
      behind, gapFree, Decl.shift_shift, List.map_nil, List.append_nil,
      List.length_append]

/-- The declarations of a file are those before the block, in it, and behind it. -/
theorem decls_file :
    decls tables file.text = decls tables file.head ++
      ((decls tables file.block.text).map (Decl.shift file.head.length) ++
        (decls tables file.rest).map
          (Decl.shift (file.head.length + file.block.text.length))) := by
  rw [HclFile.text, List.append_assoc, decls_head,
    decls_append tables file.block.isBlock.closed, List.map_append, Decl.shift_shift]

end Places

/-! ## Slices -/

/-- The place of the first declaration, or the end of the text. -/
def nextStart (size : Nat) : List Decl → Nat
  | [] => size
  | decl :: _ => decl.start

/-- The block in a text that is longer at the front. -/
def shiftBlock (offset : Nat) (block : Decl × Nat) : Decl × Nat :=
  (block.1.shift offset, offset + block.2)

theorem nextStart_append (size : Nat) (front back : List Decl) :
    nextStart size (front ++ back) = nextStart (nextStart size back) front := by
  cases front <;> rfl

theorem blocks_append (size : Nat) (front back : List Decl) :
    blocks size (front ++ back) = blocks
      (nextStart size back) front ++ blocks size back := by
  induction front with
  | nil => rfl
  | cons decl front inductionHypothesis =>
      cases front with
      | nil => cases back <;> rfl
      | cons next front =>
          rw [List.cons_append, List.cons_append, blocks, ← List.cons_append,
            inductionHypothesis]
          rfl

theorem blocks_shift (offset size : Nat) (decls : List Decl) :
    blocks (offset + size) (decls.map (Decl.shift offset)) =
      (blocks size decls).map (shiftBlock offset) := by
  induction decls with
  | nil => rfl
  | cons decl decls inductionHypothesis =>
      cases decls with
      | nil => rfl
      | cons next decls =>
          rw [List.map_cons, List.map_cons, blocks, ← List.map_cons, inductionHypothesis]
          rfl

theorem mem_blocks {size : Nat} {decls : List Decl} {block : Decl × Nat}
    (member : block ∈ blocks size decls) :
    block.1 ∈ decls ∧ (block.2 = size ∨ ∃ next ∈ decls, block.2 = next.start) := by
  induction decls with
  | nil => cases member
  | cons decl decls inductionHypothesis =>
      cases decls with
      | nil =>
          rw [List.mem_singleton.mp member]
          exact ⟨List.mem_cons_self, Or.inl rfl⟩
      | cons next decls =>
          rcases List.mem_cons.mp member with rfl | later
          · exact ⟨List.mem_cons_self, Or.inr ⟨next, by simp, rfl⟩⟩
          · obtain ⟨here, ends⟩ := inductionHypothesis later
            refine ⟨List.mem_cons_of_mem _ here, ends.imp_right ?_⟩
            rintro ⟨other, listed, same⟩
            exact ⟨other, List.mem_cons_of_mem _ listed, same⟩

theorem start_lt {tables : CaseTables} {text : List Char} {decl : Decl}
    (member : decl ∈ decls tables text) : decl.start < text.length := by
  obtain ⟨found, listed, rfl⟩ := List.mem_map.mp member
  exact (Matcher.of_mem_finditer listed).1

/-- A field lies in the slice that it is found in. -/
theorem place_le {field : String} {slice : List Char} {captured : Captured}
    (member : captured ∈ (fieldRe field).finditer slice) :
    captured.place ≤ slice.length := by
  obtain ⟨within, before, taken⟩ := Matcher.of_mem_finditer member
  obtain ⟨inside, fits⟩ :=
    Matcher.capture_within (Option.ite_none_left_eq_some.mp taken).2
  rw [List.length_drop] at fits
  rw [Captured.place]
  simp only at inside fits
  omega

/-! ## Lines -/

/-- What a finding says but for its line number. -/
def Report.withoutLine (report : Report) : Report := { report with line := 0 }

/-- The report of a hit without its line number, given the line at
each place of the slice. -/
def outline (rtype : List Char) (lines : Nat → List Char) (hit : Hit) : Report where
  rtype := rtype
  field := hit.field
  value := hit.value
  algorithm := hit.algorithm
  cls := hit.cls
  line := 0
  snippet := lines hit.pos

theorem withoutLine_toReport (text : List Char) (decl : Decl) (hit : Hit) :
    (toReport text decl hit).withoutLine =
      outline decl.rtype (fun pos => snippet text (decl.start + pos)) hit := rfl

/-- A text that ends a line, but for white space. -/
def EndsLine (text : List Char) : Prop :=
  ∀ char ∈ text.reverse.takeWhile (· != '\n'), isSpace char = true

/-- A text that begins with the end of a line, but for white space. -/
def BeginsLine (text : List Char) : Prop :=
  ∀ char ∈ text.takeWhile (· != '\n'), isSpace char = true

/-- A stretch of lines has its lines in a longer text. -/
theorem snippet_within {before after : List Char} (opens : EndsLine before)
    (closes : BeginsLine after) {text : List Char} {pos : Nat}
    (within : pos ≤ text.length) :
    snippet (before ++ text ++ after) (before.length + pos) = snippet text pos := by
  have front : (before ++ text ++ after).take (before.length + pos) =
      before ++ text.take pos := by
    rw [List.append_assoc, List.take_length_add_append,
      List.take_append_of_le_length within]
  have back : (before ++ text ++ after).drop (before.length + pos) =
      text.drop pos ++ after := by
    rw [List.append_assoc, List.drop_length_add_append,
      List.drop_append_of_le_length within]
  have spaces : ∀ {first second : List Char},
      (∀ char ∈ second.takeWhile (· != '\n'), isSpace char = true) →
      ∃ blank, (first ++ second).takeWhile (· != '\n') =
        first.takeWhile (· != '\n') ++ blank ∧ ∀ char ∈ blank, isSpace char = true := by
    intro first second blank
    rw [List.takeWhile_append]
    split
    · next whole =>
      exact ⟨_, by rw [(List.takeWhile_prefix _).eq_of_length whole], blank⟩
    · exact ⟨[], (List.append_nil _).symm, nofun⟩
  obtain ⟨left, leftLine, leftBlank⟩ :=
    @spaces (text.take pos).reverse before.reverse opens
  obtain ⟨right, rightLine, rightBlank⟩ := @spaces (text.drop pos) after closes
  have leftReversed : ∀ char ∈ left.reverse, isSpace char = true :=
    fun char member => leftBlank char (List.mem_reverse.mp member)
  simp only [snippet, front, back, List.reverse_append, leftLine, rightLine]
  rw [List.append_assoc, ← List.append_assoc (List.reverse _) _ right,
    strip_spaced leftReversed rightBlank]

theorem takeWhile_of_break {gap : List Char} (broken : '\n' ∈ gap) (rest : List Char) :
    (gap ++ rest).takeWhile (· != '\n') = gap.takeWhile (· != '\n') := by
  rw [List.takeWhile_append, if_neg]
  intro whole
  have all : gap.takeWhile (· != '\n') = gap :=
    (List.takeWhile_prefix _).eq_of_length whole
  rw [← all] at broken
  simpa using List.all_eq_true.mp List.all_takeWhile _ broken

theorem takeWhile_blank {gap : List Char} (blank : ∀ char ∈ gap, isSpace char = true) :
    ∀ char ∈ gap.takeWhile (· != '\n'), isSpace char = true :=
  fun char member => blank char ((List.takeWhile_sublist _).subset member)

namespace HclFile

variable (file : HclFile)

theorem endsLine_head : EndsLine file.head := by
  have blank : ∀ char ∈ file.block.gap.reverse, isSpace char = true :=
    fun char member => file.block.blank char (List.mem_reverse.mp member)
  rw [EndsLine, head, List.reverse_append]
  cases first : file.front with
  | nil =>
      rw [render, List.flatMap_nil, List.reverse_nil, List.append_nil]
      exact takeWhile_blank blank
  | cons placed front =>
      have broken := file.separated file.block (by simp [first])
      rw [takeWhile_of_break (List.mem_reverse.mpr broken)]
      exact takeWhile_blank blank

theorem beginsLine_rest : BeginsLine file.rest := by
  rw [BeginsLine, rest]
  cases later : file.back with
  | nil => exact takeWhile_blank file.blank
  | cons placed back =>
      have broken : '\n' ∈ placed.gap := by
        apply file.separated placed
        cases first : file.front <;> simp [later]
      rw [render, List.flatMap_cons, List.append_assoc, List.append_assoc,
        takeWhile_of_break broken]
      exact takeWhile_blank placed.blank

/-- The lines of the block are those of the block alone. -/
theorem snippet_block {pos : Nat} (within : pos ≤ file.block.text.length) :
    snippet file.text (file.head.length + pos) = snippet file.block.text pos :=
  snippet_within file.endsLine_head file.beginsLine_rest within

end HclFile

/-! ## Hits -/

section Hits

variable {tables : CaseTables}

theorem eachMatch_place {field : String} {rating : List Char → Option (Option Rating)}
    {found : List Captured} {hits : List Hit}
    (scanned : eachMatch field rating found = some hits)
    {hit : Hit} (member : hit ∈ hits) : ∃ captured ∈ found, hit.pos = captured.place := by
  induction found generalizing hits with
  | nil =>
      cases scanned
      cases member
  | cons captured found inductionHypothesis =>
      obtain ⟨rated, -, scanned⟩ := Option.bind_eq_some_iff.mp scanned
      obtain ⟨others, later, built⟩ := Option.bind_eq_some_iff.mp scanned
      cases rated with
      | none =>
          cases built
          obtain ⟨other, listed, same⟩ := inductionHypothesis later member
          exact ⟨other, List.mem_cons_of_mem _ listed, same⟩
      | some rated =>
          cases built
          rcases List.mem_cons.mp member with rfl | behind
          · exact ⟨captured, List.mem_cons_self, rfl⟩
          · obtain ⟨other, listed, same⟩ := inductionHypothesis later behind
            exact ⟨other, List.mem_cons_of_mem _ listed, same⟩

theorem privateKeyHits_place {am bm : Option Captured} {hits : List Hit}
    (scanned : privateKeyHits tables am bm = some hits) {hit : Hit}
    (member : hit ∈ hits) :
    hit.pos = am.elim 0 Captured.place := by
  simp only [privateKeyHits] at scanned
  split_ifs at scanned
  · obtain ⟨bits, -, rfl⟩ := Option.map_eq_some_iff.mp scanned
    rw [List.mem_singleton.mp member]
  · cases scanned
    rw [List.mem_singleton.mp member]
  · cases scanned
    cases member

theorem vaultKeyHits_place {km sm : Option Captured} {hits : List Hit}
    (scanned : vaultKeyHits tables km sm = some hits) {hit : Hit} (member : hit ∈ hits) :
    ∃ captured, km = some captured ∧ hit.pos = captured.place := by
  cases km with
  | none =>
      cases scanned
      cases member
  | some captured =>
      refine ⟨captured, rfl, ?_⟩
      simp only [vaultKeyHits] at scanned
      split_ifs at scanned
      · obtain ⟨bits, -, rfl⟩ := Option.map_eq_some_iff.mp scanned
        rw [List.mem_singleton.mp member]
      · cases scanned
        rw [List.mem_singleton.mp member]
      · cases scanned
        cases member

/-- A hit stands at a field, or at the head of the slice. -/
theorem blockHits_place {rtype : List Char} {found : String → List Captured}
    {hits : List Hit}
    (scanned : blockHits tables rtype found = some hits) {hit : Hit}
    (member : hit ∈ hits) :
    hit.pos = 0 ∨ ∃ field, ∃ captured ∈ found field, hit.pos = captured.place := by
  have first : ∀ {field : String} {captured : Captured},
      (found field).head? = some captured → captured ∈ found field :=
    fun head => List.mem_of_head? head
  unfold blockHits at scanned
  split_ifs at scanned
  · exact Or.inr ⟨_, eachMatch_place scanned member⟩
  · exact Or.inr ⟨_, eachMatch_place scanned member⟩
  · have placed := privateKeyHits_place scanned member
    cases head : (found "algorithm").head? with
    | none =>
        rw [head] at placed
        exact Or.inl placed
    | some captured =>
        rw [head] at placed
        exact Or.inr ⟨_, captured, first head, placed⟩
  · exact Or.inr ⟨_, eachMatch_place scanned member⟩
  · exact Or.inr ⟨_, eachMatch_place scanned member⟩
  · obtain ⟨captured, head, same⟩ := vaultKeyHits_place scanned member
    exact Or.inr ⟨_, captured, first head, same⟩
  · cases scanned
    cases member

end Hits

/-! ## Fields behind the block -/

section Tails

variable (tables : CaseTables)

/-- Fields that are rated one by one say the same with those of the tail: the tail
has none that is reported or fails, unless the block fails itself, or reports
nothing and the tail fails. -/
def EachUnmoved (rating : List Char → Option (Option Rating))
    (own tail : List Captured) : Prop :=
  (∃ captured ∈ own, rating captured.value = none) ∨
    (∀ captured ∈ tail, rating captured.value = some none) ∨
    ((∀ captured ∈ own, rating captured.value = some none) ∧
      ∃ captured ∈ tail, rating captured.value = none)

/-- The size of a key says the same with the tail: the block has it, or the tail has none
or the size that is supposed where it is missing. -/
def SizeUnmoved (missing : Option Nat) (own tail : Option Captured) : Prop :=
  own.isSome ∨ ∀ captured ∈ tail, digits tables captured.value = some missing

/-- A size that `int` refuses. -/
def SizeFails (size : Option Captured) : Prop :=
  ∃ captured ∈ size, digits tables captured.value = none

/-- A `tls_private_key` says the same with the tail. -/
def PrivateKeyUnmoved (am bm am' bm' : Option Captured)
    (sameLine : Captured → Prop) : Prop :=
  match am, am' with
  | some am, _ => startsWith (tables.upper am.value) "RSA" →
      SizeUnmoved tables (some 2048) bm bm'
  | none, none => SizeUnmoved tables (some 2048) bm bm'
  | none, some am' =>
      if startsWith (tables.upper am'.value) "RSA" then
        SizeFails tables bm ∨
          (am'.value = "RSA".toList ∧ SizeUnmoved tables (some 2048) bm bm' ∧
            sameLine am')
      else
        ¬ startsWith (tables.upper am'.value) "ECDSA" ∧ SizeFails tables bm

/-- An `azurerm_key_vault_key` says the same with the tail. -/
def VaultKeyUnmoved (km sm km' sm' : Option Captured) : Prop :=
  match km, km' with
  | some km, _ => startsWith (tables.upper km.value) "RSA" →
      SizeUnmoved tables none sm sm'
  | none, none => True
  | none, some km' =>
      if startsWith (tables.upper km'.value) "RSA" then SizeFails tables (sm.or sm')
      else ¬ startsWith (tables.upper km'.value) "EC"

/-- A declaration says the same with the fields of the tail. -/
def Unmoved (rtype : List Char) (own tail : String → List Captured)
    (sameLine : Captured → Prop) : Prop :=
  if oneOf rtype ["aws_kms_key"] then
    EachUnmoved (kmsRating tables) (own "customer_master_key_spec")
      (tail "customer_master_key_spec")
  else if oneOf rtype ["aws_lb_listener", "aws_alb_listener"] then
    EachUnmoved (policyRating tables) (own "ssl_policy") (tail "ssl_policy")
  else if oneOf rtype ["tls_private_key"] then
    PrivateKeyUnmoved tables (own "algorithm").head? (own "rsa_bits").head?
      (tail "algorithm").head? (tail "rsa_bits").head? sameLine
  else if oneOf rtype ["aws_acm_certificate"] then
    EachUnmoved (acmRating tables) (own "key_algorithm") (tail "key_algorithm")
  else if startsWith rtype "google_privateca" then
    EachUnmoved (privatecaRating tables) (own "algorithm") (tail "algorithm")
  else if oneOf rtype ["azurerm_key_vault_key"] then
    VaultKeyUnmoved tables (own "key_type").head? (own "key_size").head?
      (tail "key_type").head? (tail "key_size").head?
  else True

end Tails

section Each

variable {field : String} {rating : List Char → Option (Option Rating)}

theorem eachMatch_append (own tail : List Captured) :
    eachMatch field rating (own ++ tail) = (eachMatch field rating own).bind fun front =>
      (eachMatch field rating tail).map (front ++ ·) := by
  induction own with
  | nil => simp [eachMatch]
  | cons captured own inductionHypothesis =>
      rw [List.cons_append, eachMatch, eachMatch, inductionHypothesis]
      cases rating captured.value with
      | none => rfl
      | some rated =>
          cases eachMatch field rating own with
          | none => rfl
          | some front =>
              cases eachMatch field rating tail <;> cases rated <;> rfl

theorem eachMatch_eq_none {found : List Captured} :
    eachMatch field rating found = none ↔ ∃ captured ∈ found,
      rating captured.value = none := by
  induction found with
  | nil => simp [eachMatch]
  | cons captured found inductionHypothesis =>
      rw [List.exists_mem_cons_iff, ← inductionHypothesis, eachMatch]
      cases rated : rating captured.value with
      | none => simp
      | some rating_ =>
          cases eachMatch field rating found <;> cases rating_ <;> simp

theorem eachMatch_eq_nil {found : List Captured} :
    eachMatch field rating found = some [] ↔
      ∀ captured ∈ found, rating captured.value = some none := by
  induction found with
  | nil => simp [eachMatch]
  | cons captured found inductionHypothesis =>
      rw [List.forall_mem_cons, ← inductionHypothesis, eachMatch]
      cases rated : rating captured.value with
      | none => simp
      | some rating_ =>
          cases eachMatch field rating found <;> cases rating_ <;> simp

theorem eachUnmoved_shift (offset : Nat) (own tail : List Captured) :
    EachUnmoved rating own (tail.map (Found.shift offset)) ↔
    EachUnmoved rating own tail := by
  simp [EachUnmoved, Captured.value]

/-- The hits of a list of fields, or none where one of them fails. -/
theorem eachMatch_unmoved_iff {say say' : Hit → Report} (own tail : List Captured)
    (agree : ∀ hits, eachMatch field rating own = some hits →
      hits.map say' = hits.map say) :
    ((eachMatch field rating (own ++ tail)).map (List.map say')).getD [] =
        ((eachMatch field rating own).map (List.map say)).getD [] ↔
      EachUnmoved rating own tail := by
  rw [eachMatch_append,
    EachUnmoved, ← @eachMatch_eq_none field, ← @eachMatch_eq_none
      field, ← @eachMatch_eq_nil field, ← @eachMatch_eq_nil field]
  cases outcome : eachMatch field rating own with
  | none => simp
  | some front =>
      have same := agree front outcome
      cases later : eachMatch field rating tail with
      | none => simp [eq_comm]
      | some behind => simp [same]

end Each

section Sizes

variable {tables : CaseTables}

theorem sizeOr_shift (missing : Option Nat) (offset : Nat) (own tail : Option Captured) :
    sizeOr tables missing (own.or (tail.map (Found.shift offset))) =
      sizeOr tables missing (own.or tail) := by
  cases own with
  | some captured => rfl
  | none => cases tail <;> rfl

theorem sizeOr_eq_none {missing : Option Nat} {size : Option Captured} :
    sizeOr tables missing size = none ↔ SizeFails tables size := by
  cases size <;> simp [sizeOr, SizeFails]

/-- The size of a key as it is reported. -/
theorem sizeUnmoved_iff {β : Type} {missing : Option Nat} {say : Option Nat → β}
    (distinct : ∀ bits, say bits = say missing ↔ bits = missing)
    (own tail : Option Captured) :
    ((sizeOr tables missing (own.or tail)).map fun bits => [say bits]).getD [] =
        ((sizeOr tables missing own).map fun bits => [say bits]).getD [] ↔
      SizeUnmoved tables missing own tail := by
  cases own with
  | some captured => simp [SizeUnmoved]
  | none =>
      cases tail with
      | none => simp [SizeUnmoved]
      | some captured =>
          simp only [SizeUnmoved, sizeOr, Option.none_or, Option.elim_some,
            Option.elim_none, Option.isSome_none, Bool.false_eq_true, false_or,
            Option.mem_def, Option.some.injEq, forall_eq']
          cases digits tables captured.value with
          | none => simp
          | some bits => simp [distinct]

theorem rsaBits_missing (bits : Option Nat) :
    (rsaBits bits, rsaCls bits) = (rsaBits (some 2048), rsaCls (some 2048)) ↔
      bits = some 2048 := by
  refine ⟨fun same => ?_, fun same => by rw [same]⟩
  have printed := congrArg Prod.fst same
  cases bits with
  | none => exact absurd printed (by decide)
  | some bits =>
      have texts := List.append_cancel_left printed
      rw [Nat.toString_eq_repr, Nat.toString_eq_repr, Nat.toList_repr,
        Nat.toList_repr] at texts
      have numbers := congrArg (fun digits => Nat.ofDigitChars 10 digits 0) texts
      simpa only [Nat.ofDigitChars_ten_toDigits, Option.some_inj] using numbers

theorem rsaName_missing (bits : Option Nat) :
    (rsaName bits, rsaCls bits) = (rsaName none, rsaCls none) ↔ bits = none := by
  refine ⟨fun same => ?_, fun same => by rw [same]⟩
  match bits with
  | none => rfl
  | some 0 => exact absurd same (by decide)
  | some (bits + 1) =>
      have length := congrArg (fun pair => pair.1.length) same
      simp [rsaName] at length

end Sizes

section Keys

variable {tables : CaseTables} {rtype : List Char} {lines lines' :
  Nat → List Char} {bound : Nat}

/-- The hit of an RSA key. -/
def rsaHit (value : List Char) (pos : Nat) (bits : Option Nat) : Hit :=
  ⟨"algorithm", value, rsaBits bits, rsaCls bits, pos⟩

theorem privateKeyHits_some (am : Captured) (bm : Option Captured) :
    privateKeyHits tables (some am) bm =
      if startsWith (tables.upper am.value) "RSA" then
        (sizeOr tables (some 2048) bm).map fun bits => [rsaHit am.value am.place bits]
      else if startsWith (tables.upper am.value) "ECDSA" then
        some [⟨"algorithm", am.value, (ecRating tables).1, (ecRating tables).2, am.place⟩]
      else some [] := rfl

theorem privateKeyHits_none (bm : Option Captured) :
    privateKeyHits tables none bm =
      (sizeOr tables (some 2048) bm).map fun bits => [rsaHit "RSA".toList 0 bits] := rfl

/-- A hit at a place where the lines agree. -/
theorem outline_agree {hit : Hit} (line : lines' hit.pos = lines hit.pos) :
    outline rtype lines' hit = outline rtype lines hit := by
  rw [outline, outline, line]

/-- An RSA key whose size may stand in the tail. -/
theorem rsaHit_unmoved_iff (value : List Char) {pos : Nat} (line : lines' pos = lines pos)
    (bm bm' : Option Captured) :
    (((sizeOr tables (some 2048) (bm.or bm')).map fun bits => [rsaHit value pos bits]).map
        (List.map (outline rtype lines'))).getD [] =
      (((sizeOr tables (some 2048) bm).map fun bits => [rsaHit value pos bits]).map
        (List.map (outline rtype lines))).getD [] ↔
      SizeUnmoved tables (some 2048) bm bm' := by
  have same : ∀ bits, outline rtype lines' (rsaHit value pos bits) =
      outline rtype lines (rsaHit value pos bits) := fun bits => outline_agree line
  simp only [Option.map_map, Function.comp_def, List.map_cons, List.map_nil, same]
  apply sizeUnmoved_iff
  intro bits
  rw [← rsaBits_missing]
  simp [outline, rsaHit]

/-- A key without an algorithm, behind which the tail names one. -/
theorem privateKey_named_iff (bm : Option Captured) (am' : Captured)
    (bm' : Option Captured) :
    ((privateKeyHits tables (some (am'.shift bound)) (bm.or bm')).map
        (List.map (outline rtype lines'))).getD [] =
        ((privateKeyHits tables none bm).map (List.map (outline rtype lines))).getD [] ↔
      PrivateKeyUnmoved tables none bm (some am') bm' fun captured =>
        lines' (bound + captured.place) = lines 0 := by
  have place : Captured.place (am'.shift bound) = bound + am'.place := Nat.add_assoc _ _ _
  have value : Captured.value (am'.shift bound) = am'.value := rfl
  have size := @sizeUnmoved_iff tables _ (some 2048) (fun bits =>
    (rsaBits bits, rsaCls bits))
    rsaBits_missing bm bm'
  rw [privateKeyHits_none, privateKeyHits_some, place, value, PrivateKeyUnmoved, ← size,
    ← @sizeOr_eq_none _ (some 2048)]
  cases own : sizeOr tables (some 2048) bm with
  | none =>
      have whole : sizeOr tables (some 2048) (bm.or bm') = none := by
        cases bm with
        | none => cases own
        | some _ => exact own
      rw [whole]
      split_ifs <;> simp_all
  | some bits =>
      by_cases rsa : startsWith (tables.upper am'.value) "RSA" = true
      · rw [if_pos rsa, if_pos rsa]
        cases sizeOr tables (some 2048) (bm.or bm') with
        | none => simp
        | some bits' =>
            simp only [Option.map_some, Option.getD_some, List.map_cons,
              List.map_nil, outline, rsaHit, List.cons.injEq, Report.mk.injEq, and_true,
              true_and, reduceCtorEq, false_or, Prod.mk.injEq]
            rw [and_assoc]
      · rw [if_neg rsa, if_neg rsa]
        refine iff_of_false ?_ (fun both => by cases both.2)
        split
        · next ecdsa =>
          intro same
          have spelled : am'.value = "RSA".toList :=
            congrArg Report.value (List.cons.inj same).1
          rw [spelled, tables.upper_ascii (by decide)] at ecdsa
          exact absurd ecdsa (by decide)
        · simp

theorem privateKey_unmoved_iff {am bm : Option Captured} (am' bm' : Option Captured)
    (agree : ∀ pos ≤ bound, lines' pos = lines pos)
    (within : ∀ captured ∈ am, captured.place ≤ bound) :
    ((privateKeyHits tables (am.or (am'.map (Found.shift bound)))
        (bm.or (bm'.map (Found.shift bound)))).map (List.map (outline rtype lines'))).getD
          [] =
        ((privateKeyHits tables am bm).map (List.map (outline rtype lines))).getD [] ↔
      PrivateKeyUnmoved tables am bm am' bm' fun captured =>
        lines' (bound + captured.place) = lines 0 := by
  cases am with
  | some am =>
      have line := agree am.place (within am rfl)
      rw [Option.some_or, privateKeyHits_some, privateKeyHits_some, sizeOr_shift,
        PrivateKeyUnmoved]
      by_cases rsa : startsWith (tables.upper am.value) "RSA" = true
      · rw [if_pos rsa, if_pos rsa, imp_iff_right rsa, rsaHit_unmoved_iff _ line]
      · rw [if_neg rsa, if_neg rsa]
        refine iff_of_true ?_ fun rsa' => absurd rsa' rsa
        split
        · exact congrArg (fun report => [report]) (outline_agree line)
        · rfl
  | none =>
      have line := agree 0 (Nat.zero_le _)
      cases am' with
      | none =>
          rw [Option.map_none, Option.none_or, privateKeyHits_none, privateKeyHits_none,
            sizeOr_shift, rsaHit_unmoved_iff _ line]
          rfl
      | some am' =>
          have sizes : privateKeyHits tables (some (am'.shift bound))
              (bm.or (bm'.map (Found.shift bound))) =
                privateKeyHits tables (some (am'.shift bound)) (bm.or bm') := by
            rw [privateKeyHits_some, privateKeyHits_some, sizeOr_shift]
          rw [Option.map_some, Option.none_or, sizes, privateKey_named_iff]

theorem vaultKeyHits_some (km : Captured) (sm : Option Captured) :
    vaultKeyHits tables (some km) sm =
      if startsWith (tables.upper km.value) "RSA" then
        (sizeOr tables none sm).map fun bits =>
          [⟨"key_type", km.value, rsaName bits, rsaCls bits, km.place⟩]
      else if startsWith (tables.upper km.value) "EC" then
        some [⟨"key_type", km.value, (ecRating tables).1, (ecRating tables).2, km.place⟩]
      else some [] := rfl

theorem vaultKey_unmoved_iff {km sm : Option Captured} (km' sm' : Option Captured)
    (agree : ∀ pos ≤ bound, lines' pos = lines pos)
    (within : ∀ captured ∈ km, captured.place ≤ bound) :
    ((vaultKeyHits tables (km.or (km'.map (Found.shift bound)))
        (sm.or (sm'.map (Found.shift bound)))).map (List.map (outline rtype lines'))).getD
          [] =
        ((vaultKeyHits tables km sm).map (List.map (outline rtype lines))).getD [] ↔
      VaultKeyUnmoved tables km sm km' sm' := by
  cases km with
  | some km =>
      have line := agree km.place (within km rfl)
      rw [Option.some_or, vaultKeyHits_some, vaultKeyHits_some, sizeOr_shift,
        VaultKeyUnmoved]
      by_cases rsa : startsWith (tables.upper km.value) "RSA" = true
      · have same : ∀ bits, outline rtype lines'
            ⟨"key_type", km.value, rsaName bits, rsaCls bits, km.place⟩ =
              outline rtype lines ⟨"key_type", km.value, rsaName bits, rsaCls bits,
                km.place⟩ :=
          fun bits => outline_agree line
        rw [if_pos rsa, if_pos rsa, imp_iff_right rsa]
        simp only [Option.map_map, Function.comp_def, List.map_cons, List.map_nil, same]
        apply sizeUnmoved_iff
        intro bits
        rw [← rsaName_missing]
        simp [outline]
      · rw [if_neg rsa, if_neg rsa]
        refine iff_of_true ?_ fun rsa' => absurd rsa' rsa
        split
        · exact congrArg (fun report => [report]) (outline_agree line)
        · rfl
  | none =>
      cases km' with
      | none => exact iff_of_true rfl trivial
      | some km' =>
          have value : Captured.value (km'.shift bound) = km'.value := rfl
          rw [Option.map_some, Option.none_or, vaultKeyHits_some, sizeOr_shift, value,
            VaultKeyUnmoved, ← @sizeOr_eq_none _ none]
          change _ = [] ↔ _
          by_cases rsa : startsWith (tables.upper km'.value) "RSA" = true
          · rw [if_pos rsa, if_pos rsa]
            cases sizeOr tables none (sm.or sm') <;> simp
          · rw [if_neg rsa, if_neg rsa]
            split <;> simp_all

/-- A declaration with the fields of a tail says what it says without, exactly when they
leave it unmoved. -/
theorem blockHits_unmoved_iff {own tail whole : String → List Captured}
    (joined : ∀ field ∈ fields,
      whole field = own field ++ (tail field).map (Found.shift bound))
    (agree : ∀ pos ≤ bound, lines' pos = lines pos)
    (within : ∀ field, ∀ captured ∈ own field, captured.place ≤ bound) :
    ((blockHits tables rtype whole).map (List.map (outline rtype lines'))).getD [] =
        ((blockHits tables rtype own).map (List.map (outline rtype lines))).getD [] ↔
      Unmoved tables rtype own tail fun captured => lines'
        (bound + captured.place) = lines 0 := by
  have each : ∀ field ∈ fields, ∀ rating,
      ((eachMatch field rating (whole field)).map (List.map (outline rtype lines'))).getD
        [] =
          ((eachMatch field rating (own field)).map (List.map (outline rtype lines))).getD
            [] ↔
        EachUnmoved rating (own field) (tail field) := by
    intro field listed rating
    rw [joined field listed, eachMatch_unmoved_iff, eachUnmoved_shift]
    intro hits scanned
    apply List.map_congr_left
    intro hit member
    obtain ⟨captured, found, same⟩ := eachMatch_place scanned member
    exact outline_agree (agree _ (same ▸ within field captured found))
  have first : ∀ field ∈ fields, (whole field).head? =
      (own field).head?.or ((tail field).head?.map (Found.shift bound)) := by
    intro field listed
    rw [joined field listed, List.head?_append, List.head?_map]
  have near : ∀ field, ∀ captured ∈ (own field).head?, captured.place ≤ bound :=
    fun field captured head => within field captured (List.mem_of_head? head)
  unfold blockHits Unmoved
  by_cases kms : oneOf rtype ["aws_kms_key"] = true
  · rw [if_pos kms, if_pos kms, if_pos kms]
    exact each _ (by decide) _
  rw [if_neg kms, if_neg kms, if_neg kms]
  by_cases listener : oneOf rtype ["aws_lb_listener", "aws_alb_listener"] = true
  · rw [if_pos listener, if_pos listener, if_pos listener]
    exact each _ (by decide) _
  rw [if_neg listener, if_neg listener, if_neg listener]
  by_cases key : oneOf rtype ["tls_private_key"] = true
  · rw [if_pos key, if_pos key, if_pos key, first _ (by decide), first _ (by decide)]
    exact privateKey_unmoved_iff _ _ agree (near _)
  rw [if_neg key, if_neg key, if_neg key]
  by_cases certificate : oneOf rtype ["aws_acm_certificate"] = true
  · rw [if_pos certificate, if_pos certificate, if_pos certificate]
    exact each _ (by decide) _
  rw [if_neg certificate, if_neg certificate, if_neg certificate]
  by_cases authority : startsWith rtype "google_privateca" = true
  · rw [if_pos authority, if_pos authority, if_pos authority]
    exact each _ (by decide) _
  rw [if_neg authority, if_neg authority, if_neg authority]
  by_cases vault : oneOf rtype ["azurerm_key_vault_key"] = true
  · rw [if_pos vault, if_pos vault, if_pos vault, first _ (by decide),
      first _ (by decide)]
    exact vaultKey_unmoved_iff _ _ agree (near _)
  rw [if_neg vault, if_neg vault, if_neg vault]
  exact iff_of_true rfl trivial

end Keys

/-! ## Reports of a block -/

section Loops

variable (tables : CaseTables)

/-- What the scan of a text reports if no limit ends it, with the
places of the declarations. -/
def loopReports (text : List Char) : List (Nat × Report) :=
  reported (fun block => (scanBlock tables text block).map (List.map fun report =>
    (block.1.start, report))) (declared tables text)

/-- The reports for the declarations of a part of the text, without their line numbers. -/
def reportsWithin (text : List Char) (start size : Nat) : List Report :=
  ((loopReports tables text).filter fun entry =>
    start ≤ entry.1 && entry.1 < start + size).map fun entry => entry.2.withoutLine

/-- What `_scan_block` says of a declaration but for the line numbers. -/
def outlines (text : List Char) (block : Decl × Nat) : Option (List Report) :=
  (scanBlock tables text block).map (List.map Report.withoutLine)

/-- The findings of a file are the reports of the loop up to the limit. -/
theorem scanFile_terraform (now : DateTime) (path : Path) (text : List Char) :
    ((fsIacTerraform tables now).scanFile path text).1 =
      ((loopReports tables text).map fun entry => entry.2.toFinding path now).take
        maxPerFile := by
  have loop : (fun block => declFindings tables now path text block) = fun block =>
      ((scanBlock tables text block).map (List.map fun report =>
        (block.1.start, report))).map
          (List.map fun entry => entry.2.toFinding path now) := by
    funext block
    rw [declFindings, Option.map_map]
    congr 1
    funext reports
    simp
  change (emitAll maxPerFile (fun block => declFindings tables now path text block) 0
    (declared tables text)).1 = _
  rw [emitAll_eq (Nat.zero_le _), loop, reported_map]
  rfl

theorem outlines_eq (text : List Char) (decl : Decl) (stop : Nat) :
    outlines tables text (decl, stop) =
      (blockHits tables decl.rtype fun field =>
        (fieldRe field).finditer ((text.take stop).drop decl.start)).map
          (List.map (outline decl.rtype fun pos => snippet text (decl.start + pos))) := by
  rw [outlines, scanBlock, Option.map_map]
  congr 1
  funext hits
  simp [Function.comp_def, withoutLine_toReport]

end Loops

namespace HclFile

variable (tables : CaseTables) (file : HclFile)

/-- The text behind the block up to the next declaration. -/
def tail : List Char :=
  match resourceRe.search file.rest with
  | none => file.rest
  | some found => file.rest.take found.start

theorem tail_eq :
    file.tail = file.rest.take (nextStart file.rest.length (decls tables file.rest)) := by
  rw [tail, Matcher.search, decls]
  cases resourceRe.finditer file.rest with
  | nil => exact (List.take_length).symm
  | cons found others => rfl

/-- Inside the block a declaration says in the file what it says in the block alone. -/
theorem outlines_inner {decl : Decl} {stop : Nat}
    (start : decl.start < file.block.text.length)
    (within : stop ≤ file.block.text.length) :
    outlines tables file.text (shiftBlock file.head.length (decl, stop)) =
      outlines tables file.block.text (decl, stop) := by
  have slice : (file.text.take (file.head.length + stop)).drop
      (file.head.length + decl.start) =
      (file.block.text.take stop).drop decl.start := by
    rw [text, List.append_assoc, List.take_length_add_append, List.drop_length_add_append,
      List.take_append_of_le_length within]
  rw [shiftBlock, outlines_eq, outlines_eq]
  change Option.map _ (blockHits tables decl.rtype fun field => (fieldRe field).finditer
    ((file.text.take (file.head.length + stop)).drop (file.head.length + decl.start))) = _
  rw [slice]
  cases scanned : blockHits tables decl.rtype fun field =>
      (fieldRe field).finditer ((file.block.text.take stop).drop decl.start) with
  | none => rfl
  | some hits =>
      refine congrArg some (List.map_congr_left fun hit member => outline_agree ?_)
      have near : decl.start + hit.pos ≤ file.block.text.length := by
        rcases blockHits_place scanned member with head | ⟨field, captured, found, same⟩
        · omega
        · have bound := place_le found
          rw [List.length_drop, List.length_take] at bound
          omega
      change snippet file.text (file.head.length + decl.start + hit.pos) = _
      rw [Nat.add_assoc, file.snippet_block near]

/-- What the last declaration of the block says in the file and in the block alone. -/
theorem outlines_last {decl : Decl} (start : decl.start < file.block.text.length) :
    (outlines tables file.text (decl.shift file.head.length,
        file.head.length + file.block.text.length + file.tail.length)).getD [] =
        (outlines tables file.block.text (decl, file.block.text.length)).getD [] ↔
      Unmoved tables decl.rtype
        (fun field => (fieldRe field).finditer (file.block.text.drop decl.start))
        (fun field => (fieldRe field).finditer file.tail) fun captured =>
          snippet file.text (file.head.length + file.block.text.length + captured.place) =
            snippet file.block.text decl.start := by
  obtain ⟨inner, closed⟩ := List.getLast?_eq_some_iff.mp file.block.isBlock.closed
  have size : (file.block.text.drop decl.start).length =
      file.block.text.length - decl.start :=
    List.length_drop
  have own : file.block.text.drop decl.start = inner.drop decl.start ++ ['}'] := by
    rw [closed, List.length_append, List.length_singleton] at start
    rw [closed, List.drop_append_of_le_length (by omega)]
  have tail : file.rest.take file.tail.length = file.tail := by
    rw [tail_eq tables]
    exact (List.prefix_iff_eq_take.mp (List.take_prefix _ _)).symm
  have slice : (file.text.take (file.head.length + file.block.text.length +
      file.tail.length)).drop (file.head.length + decl.start) =
        file.block.text.drop decl.start ++ file.tail := by
    rw [text, List.append_assoc, Nat.add_assoc, List.take_length_add_append,
      List.take_length_add_append, tail, List.drop_length_add_append,
      List.drop_append_of_le_length (by omega)]
  have unmoved := @blockHits_unmoved_iff tables decl.rtype
    (fun pos => snippet file.block.text (decl.start + pos))
    (fun pos => snippet file.text (file.head.length + decl.start + pos))
    (file.block.text.drop decl.start).length
    (fun field => (fieldRe field).finditer (file.block.text.drop decl.start))
    (fun field => (fieldRe field).finditer file.tail)
    (fun field => (fieldRe field).finditer (file.block.text.drop decl.start ++ file.tail))
    (fun field listed => by
      rw [own]
      exact Matcher.finditer_stop (fieldRe_stops field listed) (fieldRe_fresh field) _ _)
    (fun pos within => by
      rw [Nat.add_assoc]
      exact file.snippet_block (by omega))
    (fun field captured found => place_le found)
  have places : ∀ place, file.head.length + decl.start +
      ((file.block.text.drop decl.start).length + place) =
        file.head.length + file.block.text.length + place := by
    intro place
    omega
  simp only [places, Nat.add_zero] at unmoved
  rw [outlines_eq, outlines_eq, List.take_length, ← unmoved]
  change (Option.map _ (blockHits tables decl.rtype fun field => (fieldRe field).finditer
    ((file.text.take (file.head.length + file.block.text.length + file.tail.length)).drop
      (file.head.length + decl.start)))).getD [] = _ ↔ _
  rw [slice]
  rfl

end HclFile

/-! ## Independence -/

section Independence

variable (tables : CaseTables)

/-- The loop over some of the declarations. -/
def loopOver (text : List Char) (blocks : List (Decl × Nat)) : List (Nat × Report) :=
  reported (fun block => (scanBlock tables text block).map (List.map fun report =>
    (block.1.start, report))) blocks

theorem loopOver_append (text : List Char) (front back : List (Decl × Nat)) :
    loopOver tables text (front ++ back) =
      if ∀ block ∈ front, (scanBlock tables text block).isSome then
        loopOver tables text front ++ loopOver tables text back
      else loopOver tables text front := by
  simp only [loopOver, reported_append, Option.isSome_map]

theorem withoutLine_loopOver (text : List Char) (blocks : List (Decl × Nat)) :
    ((loopOver tables text blocks).map fun entry => entry.2.withoutLine) =
      reported (outlines tables text) blocks := by
  rw [loopOver, ← reported_map]
  congr 1
  funext block
  rw [outlines, Option.map_map]
  congr 1
  funext reports
  simp

theorem start_of_mem_loopOver {text : List Char} {blocks : List (Decl × Nat)}
    {entry : Nat × Report} (member : entry ∈ loopOver tables text blocks) :
    ∃ block ∈ blocks, block.1.start = entry.1 := by
  induction blocks with
  | nil => cases member
  | cons block blocks inductionHypothesis =>
      rw [loopOver, reported] at member
      cases scanned : scanBlock tables text block with
      | none =>
          rw [scanned] at member
          cases member
      | some reports =>
          rw [scanned] at member
          rcases List.mem_append.mp member with here | later
          · obtain ⟨report, -, rfl⟩ := List.mem_map.mp here
            exact ⟨block, List.mem_cons_self, rfl⟩
          · obtain ⟨other, listed, same⟩ := inductionHypothesis later
            exact ⟨other, List.mem_cons_of_mem _ listed, same⟩

/-- A part of a loop all of whose declarations lie in a stretch, or none. -/
theorem filter_loopOver (text : List Char) (blocks : List (Decl × Nat))
    (start size : Nat) :
    ((∀ block ∈ blocks, start ≤ block.1.start ∧ block.1.start < start + size) →
      (loopOver tables text blocks).filter (fun entry =>
        start ≤ entry.1 && entry.1 < start + size) = loopOver tables text blocks) ∧
    ((∀ block ∈ blocks, ¬ (start ≤ block.1.start ∧ block.1.start < start + size)) →
      (loopOver tables text blocks).filter (fun entry =>
        start ≤ entry.1 && entry.1 < start + size) = []) := by
  constructor
  · intro inside
    rw [List.filter_eq_self]
    intro entry member
    obtain ⟨block, listed, same⟩ := start_of_mem_loopOver tables member
    have within := inside block listed
    rw [same] at within
    simpa using within
  · intro outside
    rw [List.filter_eq_nil_iff]
    intro entry member
    obtain ⟨block, listed, same⟩ := start_of_mem_loopOver tables member
    have without := outside block listed
    rw [same] at without
    simpa using without

/-- The reports of a text that is a block are those of its loop. -/
theorem reportsWithin_alone (text : List Char) :
    reportsWithin tables text 0 text.length =
      reported (outlines tables text) (declared tables text) := by
  have inside : ∀ block ∈ declared tables text,
      0 ≤ block.1.start ∧ block.1.start < 0 + text.length := by
    intro block member
    exact ⟨Nat.zero_le _, by rw [Nat.zero_add]; exact start_lt (mem_blocks member).1⟩
  rw [← withoutLine_loopOver, reportsWithin]
  congr 1
  exact (filter_loopOver tables text (declared tables text) 0 text.length).1 inside

end Independence

namespace HclFile

variable (tables : CaseTables) (file : HclFile)

/-- The declarations before the block. -/
def before : List (Decl × Nat) :=
  blocks (nextStart (nextStart file.text.length ((decls tables file.rest).map
      (Decl.shift (file.head.length + file.block.text.length))))
    ((decls tables file.block.text).map (Decl.shift file.head.length)))
      (decls tables file.head)

/-- The declarations of the block as they stand in the file. -/
def inner : List (Decl × Nat) :=
  blocks (file.head.length + file.block.text.length + file.tail.length)
    ((decls tables file.block.text).map (Decl.shift file.head.length))

/-- The scan of the file comes to the block: no number before it is too long for `int`. -/
def Reached : Prop :=
  ∀ block ∈ declared tables file.text, block.1.start < file.head.length →
    (scanBlock tables file.text block).isSome = true

instance : Decidable (file.Reached tables) := inferInstanceAs (Decidable (∀ _ ∈ _, _ → _))

theorem declared_file : ∃ back : List (Decl × Nat),
    declared tables file.text = file.before tables ++ (file.inner tables ++ back) ∧
      ∀ block ∈ back, file.head.length + file.block.text.length ≤ block.1.start := by
  have stop : nextStart file.text.length ((decls tables file.rest).map
      (Decl.shift (file.head.length + file.block.text.length))) =
        file.head.length + file.block.text.length + file.tail.length := by
    rw [tail_eq tables, text]
    cases decls : decls tables file.rest with
    | nil => simp [nextStart, Nat.add_assoc]
    | cons decl others =>
        have within := @start_lt tables file.rest decl (by simp [decls])
        simp only [List.map_cons, nextStart, Decl.shift, List.length_take]
        omega
  refine ⟨blocks file.text.length ((decls tables file.rest).map
    (Decl.shift (file.head.length + file.block.text.length))), ?_, ?_⟩
  · rw [declared, decls_file, blocks_append, blocks_append, nextStart_append, before,
      inner, stop]
  · intro block member
    obtain ⟨decl, -, same⟩ := List.mem_map.mp (mem_blocks member).1
    rw [← same]
    exact Nat.le_add_right _ _

theorem before_lt {block : Decl × Nat} (member : block ∈ file.before tables) :
    block.1.start < file.head.length :=
  start_lt (mem_blocks member).1

theorem inner_within {block : Decl × Nat} (member : block ∈ file.inner tables) :
    file.head.length ≤ block.1.start ∧
      block.1.start < file.head.length + file.block.text.length := by
  obtain ⟨decl, listed, same⟩ := List.mem_map.mp (mem_blocks member).1
  rw [← same]
  exact ⟨Nat.le_add_right _ _, Nat.add_lt_add_left (start_lt listed) _⟩

theorem reached_iff :
    file.Reached tables ↔
      ∀ block ∈ file.before tables, (scanBlock tables file.text block).isSome = true := by
  obtain ⟨back, split, behind⟩ := file.declared_file tables
  rw [Reached, split]
  constructor
  · intro reached block member
    exact reached block (List.mem_append_left _ member) (file.before_lt tables member)
  · intro reached block member start
    rcases List.mem_append.mp member with front | later
    · exact reached block front
    · rcases List.mem_append.mp later with here | last
      · have within := file.inner_within tables here
        omega
      · have after := behind block last
        omega

/-- The reports for the declarations of the block in the file. -/
theorem reportsWithin_file :
    reportsWithin tables file.text file.head.length file.block.text.length =
      if file.Reached tables then reported (outlines tables file.text) (file.inner tables)
      else [] := by
  obtain ⟨back, split, behind⟩ := file.declared_file tables
  have front := (filter_loopOver tables file.text (file.before tables) file.head.length
    file.block.text.length).2 fun block member => by
      have start := file.before_lt tables member
      omega
  have here := (filter_loopOver tables file.text (file.inner tables) file.head.length
    file.block.text.length).1 fun block member => file.inner_within tables member
  have later := (filter_loopOver tables file.text back file.head.length
    file.block.text.length).2 fun block member => by
      have start := behind block member
      omega
  have loop : loopReports tables file.text =
      loopOver tables file.text (declared tables file.text) :=
    rfl
  rw [reportsWithin, loop, split, loopOver_append]
  by_cases reached : file.Reached tables
  · rw [if_pos reached, if_pos ((file.reached_iff tables).mp reached),
      List.filter_append, front, List.nil_append, loopOver_append, ← withoutLine_loopOver]
    split
    · rw [List.filter_append, here, later, List.append_nil]
    · rw [here]
  · rw [if_neg reached, if_neg (fun all => reached ((file.reached_iff tables).mpr all)),
      front]
    rfl

/-- The declarations of the block report in the file what they
report in the block alone. -/
def LastUnmoved : Prop :=
  ∀ init last, decls tables file.block.text = init ++ [last] →
    (∀ block ∈ blocks last.start init,
      (scanBlock tables file.block.text block).isSome = true) →
    Unmoved tables last.rtype
      (fun field => (fieldRe field).finditer (file.block.text.drop last.start))
      (fun field => (fieldRe field).finditer file.tail) fun captured =>
        snippet file.text (file.head.length + file.block.text.length + captured.place) =
          snippet file.block.text last.start

theorem inner_unmoved_iff :
    reported (outlines tables file.text) (file.inner tables) =
        reported (outlines tables file.block.text) (declared tables file.block.text) ↔
      file.LastUnmoved tables := by
  rcases List.eq_nil_or_concat' (decls tables file.block.text) with none | ⟨init,
    last, split⟩
  · rw [inner, declared, none]
    refine iff_of_true rfl fun init last split => ?_
    rw [none] at split
    cases init <;> cases split
  · have start : last.start < file.block.text.length :=
      @start_lt tables _ _ (by rw [split]; simp)
    have shifted : file.inner tables =
        (blocks last.start init).map (shiftBlock file.head.length) ++
          [(last.shift file.head.length,
            file.head.length + file.block.text.length + file.tail.length)] := by
      rw [inner, split, List.map_append, blocks_append, ← blocks_shift]
      rfl
    have alone : declared tables file.block.text =
        blocks last.start init ++ [(last, file.block.text.length)] := by
      rw [declared, split, blocks_append]
      rfl
    have same : ∀ block ∈ blocks last.start init,
        outlines tables file.text (shiftBlock file.head.length block) =
          outlines tables file.block.text block := by
      rintro ⟨decl, stop⟩ member
      obtain ⟨listed, ends⟩ := mem_blocks member
      have starts : ∀ other ∈ init, other.start < file.block.text.length :=
        fun other listed => @start_lt tables _ _ (by
          rw [split]
          exact List.mem_append_left _ listed)
      refine file.outlines_inner tables (starts decl listed) ?_
      rcases ends with ends | ⟨next, listed, ends⟩
      · exact (Nat.le_of_eq ends).trans start.le
      · exact (Nat.le_of_eq ends).trans (starts next listed).le
    have front : reported (outlines tables file.text)
        ((blocks last.start init).map (shiftBlock file.head.length)) =
          reported (outlines tables file.block.text) (blocks last.start init) := by
      rw [← reported_comp]
      exact reported_congr same
    have complete : (∀ block ∈ (blocks last.start init).map (shiftBlock file.head.length),
        (outlines tables file.text block).isSome = true) ↔
          ∀ block ∈ blocks last.start init,
            (outlines tables file.block.text block).isSome = true := by
      rw [List.forall_mem_map]
      exact forall₂_congr fun block member => by rw [same block member]
    have unmoved : file.LastUnmoved tables ↔
        ((∀ block ∈ blocks last.start init,
          (outlines tables file.block.text block).isSome = true) →
          (outlines tables file.text (last.shift file.head.length,
              file.head.length + file.block.text.length + file.tail.length)).getD [] =
            (outlines tables file.block.text (last, file.block.text.length)).getD
              []) := by
      rw [file.outlines_last tables start]
      constructor
      · intro unmoved whole
        refine unmoved init last split fun block member => ?_
        have some_ := whole block member
        rwa [outlines, Option.isSome_map] at some_
      · intro unmoved init' last' split' whole
        obtain ⟨rfl, ends⟩ := List.append_inj' (split.symm.trans split') rfl
        obtain rfl : last = last' := List.singleton_inj.mp ends
        refine unmoved fun block member => ?_
        rw [outlines, Option.isSome_map]
        exact whole block member
    rw [shifted, alone, reported_append, reported_append, front, reported_singleton,
      reported_singleton, unmoved]
    by_cases whole : ∀ block ∈ blocks last.start init,
        (outlines tables file.block.text block).isSome = true
    · rw [if_pos whole, if_pos (complete.mpr whole), imp_iff_right whole,
        List.append_cancel_left_eq]
    · rw [if_neg whole, if_neg (fun all => whole (complete.mp all))]
      exact iff_of_true rfl fun all => absurd all whole

/-- The block is judged in the file as it is alone: where the scan comes to it, the text
behind it, up to the next declaration, leaves its last declaration unmoved; and where a
number before it ends the scan, it has nothing to report. -/
def Independent : Prop :=
  (file.Reached tables → file.LastUnmoved tables) ∧
    (¬ file.Reached tables →
      reportsWithin tables file.block.text 0 file.block.text.length = [])

end HclFile

/-- The findings of a file are the reports of its declarations up to the limit.  The
reports for the declarations of a block are those of the block alone, but for their line
numbers, exactly when it is independent of the rest of the file; and then a file with
other blocks around it reports the same exactly when it is independent there too. -/
theorem reports_of_block_alone_iff (tables : CaseTables) (file : HclFile) :
    (∀ now path, ((fsIacTerraform tables now).scanFile path file.text).1 =
      ((loopReports tables file.text).map fun entry => entry.2.toFinding path now).take
        maxPerFile) ∧
    (reportsWithin tables file.text file.head.length file.block.text.length =
        reportsWithin tables file.block.text 0 file.block.text.length ↔
      file.Independent tables) ∧
    (file.Independent tables → ∀ other : HclFile, other.block.text = file.block.text →
      (reportsWithin tables other.text other.head.length other.block.text.length =
          reportsWithin tables file.text file.head.length file.block.text.length ↔
        other.Independent tables)) := by
  have alone : ∀ file : HclFile,
      reportsWithin tables file.text file.head.length file.block.text.length =
          reportsWithin tables file.block.text 0 file.block.text.length ↔
        file.Independent tables := by
    intro file
    rw [HclFile.Independent, file.reportsWithin_file]
    by_cases reached : file.Reached tables
    · rw [if_pos reached, reportsWithin_alone, file.inner_unmoved_iff,
        imp_iff_right reached]
      exact ⟨fun unmoved => ⟨unmoved, fun lost => absurd reached lost⟩, And.left⟩
    · rw [if_neg reached, imp_iff_right reached, eq_comm]
      exact ⟨fun silent => ⟨fun all => absurd all reached, silent⟩, And.right⟩
  refine ⟨fun now path => scanFile_terraform tables now path file.text, alone file, ?_⟩
  intro independent other same
  rw [(alone file).mpr independent, ← alone other, same]

/-! ## A block behind a key -/

/-- A key with the default size. -/
def keyBlock : Placed where
  gap := []
  text := "resource \"tls_private_key\" \"signing\" \x7b\n  algorithm = \"RSA\"\n\x7d".toList
  blank := nofun
  isBlock := ⟨"resource", by decide,
    " \"tls_private_key\" \"signing\" \x7b\n  algorithm = \"RSA\"\n".toList, by decide⟩

/-- Local values, one of which is named like the size of a key. -/
def localsBlock : Placed where
  gap := "\n".toList
  text := "locals \x7b\n  rsa_bits = 4096\n\x7d".toList
  blank := by decide
  isBlock := ⟨"locals", by decide, " \x7b\n  rsa_bits = 4096\n".toList, by decide⟩

/-- The key and the local values in one file. -/
def keyFile : HclFile where
  front := []
  block := keyBlock
  back := [localsBlock]
  trail := "\n".toList
  blank := by decide
  separated := by decide

/-- The local values give the key their size. -/
theorem locals_resize_key :
    reportsWithin plainTables keyFile.text keyFile.head.length keyFile.block.text.length ≠
      reportsWithin plainTables keyFile.block.text 0 keyFile.block.text.length := by
  decide +kernel

end Probes
end PqcScan
