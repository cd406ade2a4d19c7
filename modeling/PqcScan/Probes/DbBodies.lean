import PqcScan.Probes.DbBlocks

/-!
# Bodies of private keys

What is emitted does not depend on the bodies of the private keys that a database holds,
as long as the bodies have no markers, name the same ssh keys and load as the same
algorithms.
-/

namespace PqcScan
namespace Probes
namespace FsDbCrypto

open Library Python PqcScan.Core

/-! ## Keys of ssh around markers -/

/-- The text behind a dash of a marker: more dashes, and no blank or
letter of a curve behind. -/
structure Calm (more : List Char) : Prop where
  head : ∀ char ∈ more.head?, char = '-' ∨ isCurveChar char = false
  behind : ∀ char ∈ (more.dropWhile isCurveChar).head?, isSpace char = false

theorem calm_replicate {next : Char} (curve : isCurveChar next = false)
    (space : isSpace next = false) {count : Nat} {part after : List Char}
    (within : part <+: List.replicate count '-' ++ next :: after) : Calm part := by
  induction count generalizing part with
  | zero =>
      cases part with
      | nil => exact ⟨nofun, nofun⟩
      | cons char part =>
          obtain ⟨rfl, -⟩ := List.cons_prefix_cons.mp within
          constructor
          · rintro _ ⟨⟩
            exact .inr curve
          · rw [List.dropWhile_cons_of_neg (by simp [curve])]
            rintro _ ⟨⟩
            exact space
  | succ count inductionHypothesis =>
      cases part with
      | nil => exact ⟨nofun, nofun⟩
      | cons char part =>
          rw [List.replicate_succ, List.cons_append, List.cons_prefix_cons] at within
          obtain ⟨rfl, within⟩ := within
          constructor
          · rintro _ ⟨⟩
            exact .inl rfl
          · rw [List.dropWhile_cons_of_pos (by decide)]
            exact (inductionHypothesis within).behind

section Keys

variable {text more : List Char}

theorem sshTail_refused : ∀ piece ∈ sshTail, piece.accepts '-' = false := by
  intro piece member
  simp only [sshTail, List.mem_cons, List.mem_append, List.mem_replicate,
    List.not_mem_nil, or_false] at member
  rcases member with rfl | rfl | ⟨-, rfl⟩ | rfl <;> decide

theorem sshTail_parts : Parts sshTail text ('-' :: more) := by
  have parts := Parts.refused_append sshTail_refused (@parts_nil _ text ('-' :: more))
  rwa [List.append_nil] at parts

theorem sshTail_fails {text : List Char}
    (apart : ∀ char ∈ text.head?, isSpace char = false) :
    widths sshTail text = none := by
  cases text with
  | nil => rfl
  | cons char text =>
      rw [sshTail, widths, Piece.width, apart char rfl]
      rfl

theorem spelled_refused {word : String} (plain : '-' ∉ word.toList) :
    ∀ piece ∈ spelled word, piece.accepts '-' = false := by
  intro piece member
  obtain ⟨letter, inside, rfl⟩ := List.mem_map.mp member
  rw [Piece.accepts, beq_eq_false_iff_ne]
  rintro rfl
  exact plain inside

theorem one_fails {letter : Char} {pieces : List (Library.Piece Char)} (calm : Calm more)
    (curve : isCurveChar letter = true) (plain : letter ≠ '-') :
    widths (.one (· == letter) :: pieces) more = none := by
  cases more with
  | nil => rfl
  | cons char more =>
      have other : (char == letter) = false := by
        rw [beq_eq_false_iff_ne]
        rintro rfl
        rcases calm.head char rfl with rfl | refused
        · exact plain rfl
        · rw [curve] at refused
          cases refused
      rw [widths, Piece.width, other]
      rfl

/-- Behind a letter of a curve the pattern does not go on over the dashes of a marker. -/
theorem curve_parts (calm : Calm more) :
    Parts (.one isCurveChar :: .many isCurveChar :: sshTail) text ('-' :: more) := by
  have fails := sshTail_fails calm.behind
  have many : Parts (.many isCurveChar :: sshTail) text ('-' :: more) :=
    Parts.many (by decide) fails (sshTail_fails nofun) sshTail_parts
  exact Parts.one (widths_many_eq_none fails) many

/-- The tokens that are spelled out do not go on over the dashes of a marker. -/
theorem ssh_parts {first : Char} {rest : List (Library.Piece Char)} (calm : Calm more)
    (curve : isCurveChar first = true) (plain : first ≠ '-')
    (refused : ∀ piece ∈ rest, piece.accepts '-' = false) :
    Parts (spelled "ssh" ++ .one (· == '-') :: .one (· == first) ::
      (rest ++ sshTail)) text
      ('-' :: more) := by
  have later : Parts (.one (· == first) :: (rest ++ sshTail)) text ('-' :: more) :=
    (Parts.refused_append refused sshTail_parts).refused (by
      rw [Piece.accepts, beq_eq_false_iff_ne]
      exact plain.symm)
  exact Parts.refused_append (spelled_refused (by decide))
    (Parts.one (one_fails calm curve plain) later)

theorem curve_fails (calm : Calm more) :
    widths (.one isCurveChar :: .many isCurveChar :: sshTail) more = none := by
  cases more with
  | nil => rfl
  | cons char more =>
      have behind := calm.behind
      rw [widths, Piece.width]
      by_cases curve : isCurveChar char = true
      · rw [List.dropWhile_cons_of_pos curve] at behind
        rw [if_pos curve]
        simp only [Option.bind_eq_bind, Option.bind_some, List.drop_succ_cons,
          List.drop_zero]
        rw [widths_many_eq_none (sshTail_fails behind)]
        rfl
      · rw [if_neg curve]
        rfl

theorem ecdsa_parts (calm : Calm more) :
    Parts (spelled "ecdsa" ++ .one (· == '-') :: .one (· == 's') :: (spelled "ha2" ++
      .one (· == '-') :: .one isCurveChar :: .many isCurveChar :: sshTail)) text
        ('-' :: more) := by
  have dashed : Parts (.one (· == '-') :: .one isCurveChar :: .many isCurveChar ::
      sshTail) text
      ('-' :: more) := Parts.one (curve_fails calm) (curve_parts calm)
  have later : Parts
      (.one (· == 's') :: (spelled "ha2" ++ .one (· == '-') :: .one isCurveChar ::
      .many isCurveChar :: sshTail)) text ('-' :: more) :=
    (Parts.refused_append (spelled_refused (by decide)) dashed).refused (by decide)
  exact Parts.refused_append (spelled_refused (by decide))
    (Parts.one (one_fails calm (by decide) (by decide)) later)

theorem splits_of_parts {token : List (Library.Piece Char)}
    (parts : Parts (token ++ sshTail) text ('-' :: more)) :
    (Matcher.capture [] token sshTail).Splits text ('-' :: more) :=
  Matcher.capture_splits parts

/-- The search for ssh keys starts anew at the dashes of a marker. -/
theorem sshKey_splits (isWord : Char → Bool) (calm : Calm more) :
    (sshKey isWord).Splits text ('-' :: more) := by
  refine (Matcher.Splits.first ?_).guarded isWord
  rw [List.forall_mem_map]
  intro token member
  apply splits_of_parts
  have plain : ∀ word ∈ ["sa", "d25519", "ss"], '-' ∉ word.toList := by decide
  simp only [sshTokens, List.mem_cons, List.not_mem_nil, or_false] at member
  rcases member with rfl | rfl | rfl | rfl
  · exact @ssh_parts _ _ 'r' _ calm (by decide) (by decide)
      (spelled_refused (plain "sa" (by decide)))
  · exact @ssh_parts _ _ 'e' _ calm (by decide) (by decide)
      (spelled_refused (plain "d25519" (by decide)))
  · exact @ssh_parts _ _ 'd' _ calm (by decide) (by decide)
      (spelled_refused (plain "ss" (by decide)))
  · exact ecdsa_parts calm

/-- No key begins in a marker. -/
theorem sshKey_marker {isWord : Char → Bool} {char : Char}
    (marked : isMarkerChar char = true)
    (before : Option Char) (text : List Char) :
    sshKey isWord before (char :: text) = none := by
  have refused : (char == 's') = false ∧ (char == 'e') = false := by
    rw [beq_eq_false_iff_ne, beq_eq_false_iff_ne]
    constructor <;> (rintro rfl; revert marked; decide)
  have letter : ∀ {first : Char} {pieces : List (Library.Piece Char)},
      (char == first) = false →
      widths (.one (· == first) :: pieces) (char :: text) = none := by
    intro first pieces other
    rw [widths, Piece.width, other]
    rfl
  have fails : ∀ token ∈ sshTokens,
      widths ([] ++ token ++ sshTail) (char :: text) = none := by
    intro token member
    simp only [sshTokens, List.mem_cons, List.not_mem_nil, or_false] at member
    rcases member with rfl | rfl | rfl | rfl
    · exact letter refused.1
    · exact letter refused.1
    · exact letter refused.1
    · exact letter refused.2
  have none_ : Matcher.first (sshTokens.map fun token =>
      Matcher.capture [] token sshTail) before
      (char :: text) = none := by
    rw [Matcher.first, List.findSome?_eq_none_iff, List.forall_mem_map]
    intro token member
    rw [Matcher.capture, fails token member]
    rfl
  rw [sshKey, Matcher.guarded, none_]
  exact ite_self none

/-- A key may begin behind a dash as at the beginning of a text. -/
theorem sshKey_fresh {isWord : Char → Bool} (apart : isWord '-' = false)
    (text : List Char) :
    sshKey isWord (some '-') text = sshKey isWord none text := by
  apply Matcher.guarded_of_not apart
  apply Matcher.Blind.first
  rw [List.forall_mem_map]
  exact fun token _ => Matcher.capture_blind [] token sshTail

/-- The tokens of the ssh keys in a text. -/
def sshTypes (isWord : Char → Bool) (text : List Char) : List (List Char) :=
  ((sshKey isWord).finditer text).map fun found => found.detail.2

/-- The keys around a marker, or around its beginning at the end of a text. -/
theorem sshTypes_split {isWord : Char → Bool} (apart : isWord '-' = false)
    {front part tail after : List Char} {next : Char} (curve : isCurveChar next = false)
    (space : isSpace next = false)
    (within : part ++ tail <+: fence '-' 5 ++ next :: after)
    (marked : ∀ char ∈ part, isMarkerChar char = true)
    (ends : tail = [] ∨ part.getLast? = some '-') :
    sshTypes isWord (front ++ (part ++ tail)) =
      sshTypes isWord front ++ sshTypes isWord tail := by
  cases part with
  | nil =>
      rcases ends with rfl | none
      · exact (congrArg _ (List.append_nil front)).trans (List.append_nil _).symm
      · cases none
  | cons char more =>
      have opens : char = '-' ∧ more ++ tail <+: List.replicate 4 '-' ++ next :: after :=
        List.cons_prefix_cons.mp within
      obtain ⟨rfl, inner⟩ := opens
      have calm : Calm (more ++ tail) := calm_replicate curve space inner
      have silent : ∀ before, ∀ item ∈ '-' :: more, ∀ text,
          sshKey isWord before (item :: text) = none := fun before item member text =>
        sshKey_marker (marked item member) before text
      have gap := Matcher.from_gap silent (front.getLast?.or none) (0 + front.length) tail
      have behind : ∃ offset,
          (sshKey isWord).from_ (front.getLast?.or none) (0 + front.length) 0
          ('-' :: more ++ tail) =
            ((sshKey isWord).finditer tail).map (Found.shift offset) := by
        refine ⟨0 + front.length + ('-' :: more).length, ?_⟩
        rw [gap]
        rcases ends with rfl | last
        · rfl
        · rw [last, Option.some_or, Matcher.from_before (sshKey_fresh apart),
            Matcher.finditer, ← Matcher.from_shift, Nat.add_zero]
      obtain ⟨offset, behind⟩ := behind
      rw [List.cons_append] at behind
      rw [sshTypes, List.cons_append, Matcher.finditer,
        Matcher.from_split (sshKey_splits isWord calm) none 0 0 (Nat.zero_le _), behind,
        List.map_append, List.map_map]
      rfl

theorem fenced_last (word : List Char) :
    (fence '-' 5 ++ (word ++ fence '-' 5)).getLast? = some '-' := by
  rw [← List.append_assoc]
  exact List.getLast?_append_of_ne_nil _ (by decide)

theorem sshTypes_begin {isWord : Char → Bool} (apart : isWord '-' = false)
    {label : List Char}
    (isLabel : IsLabel label) (front tail : List Char) :
    sshTypes isWord (front ++ (beginMarker label ++ tail)) =
      sshTypes isWord front ++ sshTypes isWord tail := by
  have whole : beginMarker label ++ tail = fence '-' 5 ++ 'B' ::
      ("EGIN ".toList ++ (label ++ (fence '-' 5 ++ tail))) := by
    rw [beginMarker_eq, show "BEGIN ".toList = 'B' :: "EGIN ".toList by decide]
    simp only [List.append_assoc, List.cons_append]
  have within : beginMarker label ++ tail <+: fence '-' 5 ++ 'B' ::
      ("EGIN ".toList ++ (label ++ (fence '-' 5 ++ tail))) := by
    rw [whole]
  refine sshTypes_split apart (by decide) (by decide) within
    (beginMarker_chars isLabel) (.inr ?_)
  rw [beginMarker_eq]
  exact fenced_last _

/-- Behind the body of a block the keys do not depend on the body. -/
theorem sshTypes_end {isWord : Char → Bool} (apart : isWord '-' = false)
    {label rest back : List Char} (isLabel : IsLabel label)
    (follows : rest <+: endMarker label ++ back) :
    ∃ tail, ∀ front, sshTypes isWord (front ++ rest) =
      sshTypes isWord front ++ sshTypes isWord tail := by
  have whole : endMarker label ++ back = fence '-' 5 ++ 'E' ::
      ("ND ".toList ++ (label ++ (fence '-' 5 ++ back))) := by
    rw [endMarker_eq, show "END ".toList = 'E' :: "ND ".toList by decide]
    simp only [List.append_assoc, List.cons_append]
  rcases List.prefix_or_prefix_of_prefix follows
    (List.prefix_append _ _) with part | ⟨tail, rfl⟩
  · refine ⟨[], fun front => ?_⟩
    rw [whole, ← List.append_nil rest] at follows
    have marked : ∀ char ∈ rest, isMarkerChar char = true := fun char member =>
      endMarker_chars isLabel char (part.subset member)
    have split := @sshTypes_split isWord apart front rest [] _ 'E' (by decide)
      (by decide) follows
      marked (.inl rfl)
    rwa [List.append_nil] at split
  · refine ⟨tail, fun front => ?_⟩
    rw [whole] at follows
    refine sshTypes_split apart (by decide) (by decide) follows
      (endMarker_chars isLabel) (.inr ?_)
    rw [endMarker_eq]
    exact fenced_last _

end Keys

/-! ## Texts with other bodies -/

section Bodies

variable (loaders : KeyLoaders) (isWord : Char → Bool)

/-- Two blocks with one label that load alike. -/
structure Alike (label block block' : List Char) : Prop where
  certificate : oneOf (strip label) ["CERTIFICATE"] = true →
    (encodeLatin1 block).bind loaders.certificate =
      (encodeLatin1 block').bind loaders.certificate
  privateKey : isPrivateLabel label = true →
    tryPrivateAlg loaders block (privateKeyType (strip label)) =
      tryPrivateAlg loaders block' (privateKeyType (strip label))
  publicKey : oneOf (strip label) ["PUBLIC KEY"] = true →
    (encodeLatin1 block).bind loaders.pemPublic =
      (encodeLatin1 block').bind loaders.pemPublic

/-- Texts that differ in the body of one private key, which may be cut off at
the end. The bodies have no markers and the same ssh keys, and the blocks
around them load alike. -/
inductive Rekeyed : List Char → List Char → Prop
  | body (label front body body' rest back) (isLabel : IsLabel label)
      (privateKey : isPrivateLabel label = true) (follows :
        rest <+: endMarker label ++ back)
      (clean : Clean body) (clean' : Clean body')
      (keys : sshTypes isWord body = sshTypes isWord body')
      (loads : ∀ other before behind, IsLabel other →
        beginMarker other ++ before <:+ front ++ beginMarker label →
        behind ++ endMarker other <+: rest →
          Alike loaders other (blockText other (before ++ (body ++ behind)))
            (blockText other (before ++ (body' ++ behind)))) :
      Rekeyed (front ++ (beginMarker label ++ (body ++ rest)))
        (front ++ (beginMarker label ++ (body' ++ rest)))

/-- Cells of one column whose scanned texts differ in bodies. -/
structure SameButBodies (cell cell' : Cell) : Prop where
  table : cell.table = cell'.table
  column : cell.column = cell'.column
  window : Relation.ReflTransGen (Rekeyed loaders isWord) (cell.text.take maxValueBytes)
    (cell'.text.take maxValueBytes)

/-- What is found in a window. -/
def windowHits (window : List Char) : Option (List Hit) :=
  ((blocks window).mapM fun found => blockHit loaders found.1 found.2).map fun hits =>
    hits.filterMap id ++ (sshTypes isWord window).map sshHit

variable {loaders : KeyLoaders} {isWord : Char → Bool}

theorem scanValue_eq (text : List Char) :
    scanValue loaders isWord text = windowHits loaders isWord
      (text.take maxValueBytes) := by
  rw [scanValue, windowHits, blocks, sshTypes, List.mapM_map, List.map_map]
  rfl

theorem Alike.blockHit_eq {label block block' : List Char}
    (alike : Alike loaders label block block') :
    blockHit loaders label block = blockHit loaders label block' := by
  rw [blockHit, blockHit]
  by_cases certificate : oneOf (strip label) ["CERTIFICATE"] = true
  · simp only [if_pos certificate]
    rw [certHit, certHit, alike.certificate certificate]
  · simp only [if_neg certificate]
    by_cases privateKey : endsWith (strip label) "PRIVATE KEY" = true
    · simp only [if_pos privateKey]
      have isPrivate : isPrivateLabel label = true := by
        rw [isPrivateLabel, privateKey, Bool.eq_false_iff.mpr certificate]
        rfl
      rw [privateKeyHit, privateKeyHit, alike.privateKey isPrivate]
    · simp only [if_neg privateKey]
      by_cases publicKey : oneOf (strip label) ["PUBLIC KEY"] = true
      · simp only [if_pos publicKey]
        rw [publicKeyHit, publicKeyHit, alike.publicKey publicKey]
      · simp only [if_neg publicKey]

theorem mapM_congr_forall₂ {α β : Type} {related : α → α → Prop} (run : α → Option β)
    (same : ∀ item item', related item item' → run item = run item')
    {items items' : List α}
    (pairs : List.Forall₂ related items items') : items.mapM run = items'.mapM run := by
  induction pairs with
  | nil => rfl
  | cons pair _ inductionHypothesis =>
      rw [List.mapM_cons, List.mapM_cons, same _ _ pair, inductionHypothesis]

theorem Rekeyed.windowHits_eq (apart : isWord '-' = false) {window window' : List Char}
    (rekeyed : Rekeyed loaders isWord window window') :
    windowHits loaders isWord window = windowHits loaders isWord window' := by
  obtain ⟨label, front, body, body', rest, back, isLabel, -, follows, clean, clean',
      keys, loads⟩ :=
    rekeyed
  have types : sshTypes isWord (front ++ (beginMarker label ++ (body ++ rest))) =
      sshTypes isWord (front ++ (beginMarker label ++ (body' ++ rest))) := by
    obtain ⟨tail, behind⟩ := sshTypes_end apart isLabel follows
    rw [sshTypes_begin apart isLabel, sshTypes_begin apart isLabel, behind, behind, keys]
  have swapped := (clean.quiet isLabel front follows).blocks_swapped
    (clean'.quiet isLabel front follows) List.suffix_rfl
  rw [List.append_assoc, List.append_assoc] at swapped
  have pairs : ∀ found found',
      Swapped (front ++ beginMarker label) body body' rest found found' →
      blockHit loaders found.1 found.2 = blockHit loaders found'.1 found'.2 := by
    rintro _ _ (match_ | ⟨other, before, behind, after, isLabel', leads, goes, -⟩)
    · rfl
    · refine (loads other before behind isLabel' leads ⟨after, ?_⟩).blockHit_eq
      rw [List.append_assoc, goes]
  rw [windowHits, windowHits, types,
    mapM_congr_forall₂ (fun found => blockHit loaders found.1 found.2) pairs swapped]

theorem windowHits_congr (apart : isWord '-' = false) {window window' : List Char}
    (rekeyed : Relation.ReflTransGen (Rekeyed loaders isWord) window window') :
    windowHits loaders isWord window = windowHits loaders isWord window' := by
  induction rekeyed with
  | refl => rfl
  | tail _ step inductionHypothesis =>
      exact inductionHypothesis.trans (step.windowHits_eq apart)

theorem SameButBodies.cellHits_eq (apart : isWord '-' = false) {cell cell' : Cell}
    (same : SameButBodies loaders isWord cell cell') :
    cellHits loaders isWord cell = cellHits loaders isWord cell' := by
  rw [cellHits, cellHits, scanValue_eq, scanValue_eq, windowHits_congr apart same.window,
    same.table, same.column]

theorem hitsOf_congr (apart : isWord '-' = false) {cells cells' : List Cell}
    (same : List.Forall₂ (SameButBodies loaders isWord) cells cells') :
    hitsOf loaders isWord cells = hitsOf loaders isWord cells' := by
  induction same with
  | nil => rfl
  | cons pair _ inductionHypothesis =>
      rw [hitsOf, hitsOf, pair.cellHits_eq apart, inductionHypothesis]

/-- Databases whose scanned texts differ in bodies of private keys
have the same findings. -/
theorem emitSource_bodies (apart : isWord '-' = false) (now : DateTime) (path : Path)
    {source source' : Source}
    (same : List.Forall₂ (SameButBodies loaders isWord) source.cells source'.cells) :
    emitSource loaders isWord now path source =
      emitSource loaders isWord now path source' := by
  rw [emitSource, emitSource, emission, emission, hitsOf_congr apart same]

end Bodies

/-! ### Databases with one key -/

/-- Loaders that load nothing. -/
def unloadable : KeyLoaders :=
  ⟨fun _ => none, fun _ => none, fun _ => none, fun _ => none⟩

/-- The word characters of US-ASCII. -/
def asciiWord (char : Char) : Bool := char.isAlphanum || char == '_'

/-- A database with one cell. -/
def oneCell (text : List Char) : Source :=
  .sqlite [⟨"keys".toList, ["pem".toList], [[.text text]]⟩]

/-- A cell with a private key. -/
def rsaKey (body : String) : List Char := blockText "RSA PRIVATE KEY".toList body.toList

theorem oneCell_cells (text : List Char) :
    (oneCell text).cells = [⟨some "keys".toList, some "pem".toList, text⟩] := rfl

/-- What cannot be loaded loads alike. -/
theorem unloadable_alike {label before body body' behind : List Char}
    (plain : encodeLatin1 body ≠ none) (plain' : encodeLatin1 body' ≠ none) :
    Alike unloadable label (blockText label (before ++ (body ++ behind)))
      (blockText label (before ++ (body' ++ behind))) := by
  have all : ∀ text, encodeLatin1 text ≠ none →
      (text.all fun char => char.toNat < 256) = true := by
    intro text encoded
    by_contra other
    exact encoded (if_neg other)
  have none_ : ∀ {β : Type} (raw : Option Bytes),
      raw.bind (fun _ => (none : Option β)) = none := by
    intro β raw
    cases raw <;> rfl
  refine ⟨fun _ => by rw [unloadable, none_, none_], fun _ => ?_,
    fun _ => by rw [unloadable, none_, none_]⟩
  have same : ∀ text, encodeLatin1 text ≠ none → (encodeLatin1 (blockText label (before ++
      (text ++ behind)))).isSome =
        (encodeLatin1 (blockText label (before ++ behind))).isSome := by
    intro text encoded
    simp only [encodeLatin1, blockText, List.all_append, all text encoded, Bool.true_and]
    split <;> rfl
  have coarse : ∀ block keyType, tryPrivateAlg unloadable block keyType =
      if (encodeLatin1 block).isSome then some (coarseFamily keyType) else none := by
    intro block keyType
    rw [tryPrivateAlg]
    cases encodeLatin1 block with
    | none => rfl
    | some raw => simp [unloadable]
  rw [coarse, coarse, same body plain, same body' plain']

theorem rsaKey_rekeyed {body body' : String} (clean : Clean body.toList)
    (clean' : Clean body'.toList)
    (plain : encodeLatin1 body.toList ≠ none) (plain' : encodeLatin1 body'.toList ≠ none)
    (keys : sshTypes asciiWord body.toList = sshTypes asciiWord body'.toList) :
    Rekeyed unloadable asciiWord (rsaKey body) (rsaKey body') := by
  have isLabel : IsLabel "RSA PRIVATE KEY".toList := ⟨by decide, by decide⟩
  exact .body _ [] _ _ (endMarker "RSA PRIVATE KEY".toList) [] isLabel (by decide)
    (List.prefix_append _ []) clean clean' keys fun _ _ _ _ _ _ =>
      unloadable_alike plain plain'

/-- Two databases with different keys that are not loaded. -/
theorem otherKey_alike :
    emitSource unloadable asciiWord 0 ⟨["keys.db"]⟩ (oneCell (rsaKey "\nAA\n")) =
    emitSource unloadable asciiWord 0 ⟨["keys.db"]⟩ (oneCell (rsaKey "\nBBBB\n")) := by
  have rekeyed : Rekeyed unloadable asciiWord (rsaKey "\nAA\n") (rsaKey "\nBBBB\n") :=
    rsaKey_rekeyed ⟨by decide, by decide⟩ ⟨by decide, by decide⟩ (by decide)
      (by decide) (by decide)
  have large : 100 ≤ maxValueBytes := by decide
  have window : ∀ text : List Char, text.length ≤ 100 →
      List.take maxValueBytes text = text :=
    fun text short => List.take_of_length_le (short.trans large)
  refine emitSource_bodies (by decide) 0 _ ?_
  rw [oneCell_cells, oneCell_cells]
  refine .cons ⟨rfl, rfl, ?_⟩ .nil
  rw [window _ (by decide), window _ (by decide)]
  exact .single rekeyed

/-- A body with an ssh key in it is reported, although it loads like the other. -/
theorem sshBody_shows :
    tryPrivateAlg unloadable
      (rsaKey "\nssh-rsa AAAAAAAAAAAAAAAAAAAAAAAA\n") "RSA".toList =
        tryPrivateAlg unloadable (rsaKey "\nx\n") "RSA".toList ∧
      emitSource unloadable asciiWord 0 ⟨["keys.db"]⟩
          (oneCell (rsaKey "\nssh-rsa AAAAAAAAAAAAAAAAAAAAAAAA\n")) ≠
        emitSource unloadable asciiWord 0 ⟨["keys.db"]⟩ (oneCell (rsaKey "\nx\n")) := by
  refine ⟨by decide +kernel, fun same => ?_⟩
  have size := congrArg List.length same
  revert size
  decide +kernel

end FsDbCrypto
end Probes
end PqcScan
