import PqcScan.Library.Grouping
import PqcScan.Probes.ZeekEncodings

/-!
# When a log means the same in both encodings

What the probe makes of the records of a log, in terms of the cells it reads, and when the
columns and the objects give the same.
-/

namespace PqcScan
namespace Probes
namespace FsZeekLogs

open Library Python PqcScan.Core

/-! ## Runs by cells -/

/-- What is observed, given the cells. -/
def sight (source : Source) (cells : String → Option (List Char)) : List Obs :=
  match source with
  | .ssl =>
      ((cells "version").toList.filterMap fun version =>
        (classifyVersion version).map fun cls => (version, cls, version)) ++
      observe (cells "cipher") classifySuite id ++
      observe (cells "curve") classifyCurve id
  | .x509 =>
      observe (cells "certificate.sig_alg") classify normalise ++
      observe (cells "certificate.key_alg") classify normalise ++
      observe (cells "certificate.curve") classifyCurve id

/-- The context, given the cells. -/
def place (source : Source) (cells : String → Option (List Char)) : Context :=
  match source with
  | .ssl => ⟨cells "server_name", cells "id.resp_h", cells "id.resp_p"⟩
  | .x509 => ⟨cells "san.dns", none, none⟩

/-- What is seen in a record. -/
def sightings (source : Source) (cells : String → Option (List Char)) : List Observed :=
  (sight source cells).map fun obs => ⟨source, place source cells, obs⟩

/-- How many endpoints the records name. -/
def endpoints (source : Source) (all : List (String → Option (List Char))) : Nat :=
  (all.map fun cells => (place source cells).endpoint "-").dedup.length

/-- The findings of the rows. -/
def emission (source : Source) (all : List (String → Option (List Char))) : Emission :=
  Reporting.run Observed.key maxFindings (all.flatMap (sightings source))

/-- What is emitted of the rows of a log. -/
def outcome (source : Source) (all : List (String → Option (List Char))) : List Event :=
  (emission source all).reports.map .finding ++
    if (emission source all).capped then [.truncated]
    else (if all = [] then []
      else [.ingested source all.length (endpoints source all)]) ++
      if maxFindings ≤ (emission source all).reports.length then [.truncated] else []

section Runs

variable {readers : Readers}

theorem rowObservations_eq (source : Source) (row : Row) :
    rowObservations readers source row = sightings source (cell readers row) := by
  cases source <;> rfl

theorem context_eq (source : Source) (row : Row) :
    context readers source row = place source (cell readers row) := by
  cases source <;> rfl

/-- A run on rows of which the cells are known. -/
theorem run_eq_outcome {source : Source} {handle : List (List Char)} {rows : List Row}
    (read : iterRows readers handle = (rows, false)) :
    run readers source handle = outcome source (rows.map (cell readers)) := by
  have emitted : scanRows readers source .start rows =
      emission source (rows.map (cell readers)) := by
    have same : rowObservations readers source = fun row =>
        sightings source (cell readers row) :=
      funext (rowObservations_eq source)
    rw [scanRows, Reporting.foldl_nested, emission, List.flatMap_map, same]
  have counted : endpointCount readers source rows =
      endpoints source (rows.map (cell readers)) := by
    rw [endpointCount, endpoints, List.map_map]
    simp only [context_eq]
    rfl
  rw [run, read]
  simp only
  rw [emitted, ingested, counted, outcome, List.length_map]
  simp only [List.map_eq_nil_iff, Bool.false_eq_true, if_false]

/-- The rows that are counted are the rows that are read. -/
theorem ingested_mem_run {source source' : Source} {handle : List (List Char)}
    {rows count : Nat}
    (member : .ingested source' rows count ∈ run readers source handle) :
    rows = (iterRows readers handle).1.length := by
  rw [run] at member
  simp only [List.mem_append, List.mem_map] at member
  rcases member with ⟨_, -, same⟩ | later
  · cases same
  · split at later
    · simp at later
    · split at later
      · cases later
      · rcases List.mem_append.mp later with counts | note
        · rw [ingested] at counts
          split at counts
          · cases counts
          · cases List.mem_singleton.mp counts
            rfl
        · split at note <;> simp at note

end Runs

/-! ## Records -/

/-- The cells of the record in the columns of a log. -/
def columnCells (record : Record) : String → Option (List Char) := fun name =>
      (record name).column

/-- The cells of the record in the members of an object. -/
def memberCells (readers : Readers) (record : Record) : String → Option (List Char) :=
  fun name => (record name).member readers

section Records

variable {readers : Readers} {source : Source} {record : Record}

/-- What is observed does not depend on the encoding. -/
theorem Typed.sight_eq (typed : Typed source record) :
    sight source (columnCells record) = sight source (memberCells readers record) := by
  have same : ∀ name ∈ plainFields source,
      columnCells record name = memberCells readers record name :=
    fun name member => column_eq_member (typed.plain name member)
  cases source with
  | ssl =>
      rw [sight, sight, same "version" (by decide), same "cipher" (by decide),
        same "curve" (by decide)]
  | x509 =>
      rw [sight, sight, same "certificate.sig_alg" (by decide),
        same "certificate.key_alg" (by decide), same "certificate.curve" (by decide)]

theorem Typed.place_eq (typed : Typed .ssl record) :
    place .ssl (columnCells record) = place .ssl (memberCells readers record) := by
  have same : ∀ name ∈ plainFields .ssl,
      columnCells record name = memberCells readers record name :=
    fun name member => column_eq_member (typed.plain name member)
  rw [place, place, same "server_name" (by decide), same "id.resp_h" (by decide),
    same "id.resp_p" (by decide)]

end Records

/-! ## Agreement -/

/-- What the encodings have to agree on: endpoint, algorithm, tier and source of a
finding, and the counts of a log. -/
inductive View
  | finding (endpoint algorithm : List Char) (cls : Classification) (source : Source)
  | counts (source : Source) (rows endpoints : Nat)
  | truncated
  deriving DecidableEq

/-- The part of an event that both encodings have in common. -/
def Event.view : Event → View
  | finding observed => .finding (observed.context.endpoint "unknown") observed.obs.1
      observed.obs.2.1 observed.source
  | ingested source rows endpoints => .counts source rows endpoints
  | truncated => .truncated

/-- The two files give the same. -/
def Agree (readers : Readers) (source : Source)
    (columns objects : List (List Char)) : Prop :=
  (run readers source columns).map Event.view =
    (run readers source objects).map Event.view

/-- The file in columns is not too long and no row looks like a comment; and in an
`x509.log` nothing is observed in a record with names, and no two different sets of names
have one cell in columns (an empty set has that of none). -/
structure ReadAlike (source : Source) (layout : Layout)
    (records : List Record) : Prop where
  fit : records = [] ∨ layout.header.length + records.length ≤ maxLinesPerFile
  rows : ∀ record ∈ records, startsWith (layout.row record) "#" = false
  unseen : source = .x509 → ∀ record ∈ records, record "san.dns" ≠ .unset →
    sight .x509 (columnCells record) = []
  apart : source = .x509 → ∀ record ∈ records, ∀ other ∈ records,
    (record "san.dns").column = (other "san.dns").column →
    record "san.dns" = other "san.dns"

section Agreement

variable {readers : Readers} {source : Source} {layout : Layout} {records : List Record}
  {file : List (List Char)}

theorem run_file (fits : layout.Fits readers records)
    (fit : records = [] ∨ layout.header.length + records.length ≤ maxLinesPerFile)
    (rows : ∀ record ∈ records, startsWith (layout.row record) "#" = false) :
    run readers source (layout.file records) = outcome source
      (records.map columnCells) := by
  have cells : ∀ record ∈ records, cell readers (columnRow layout.columns record) =
      columnCells record := fun record member =>
    funext (cell_columnRow fits.distinct (fits.complete record member))
  rw [run_eq_outcome (fits.iterRows_file fit rows), List.map_map]
  exact congrArg (outcome source) (List.map_congr_left cells)

theorem run_json (isJson : IsJsonFile readers records file) :
    run readers source file =
      outcome source ((records.take maxLinesPerFile).map (memberCells readers)) := by
  obtain ⟨rows, read, cells⟩ := iterRows_json isJson
  rw [run_eq_outcome read]
  apply congrArg (outcome source)
  clear read
  generalize records.take maxLinesPerFile = taken at cells ⊢
  induction cells with
  | nil => rfl
  | cons same _ inductionHypothesis =>
      rw [List.map_cons, List.map_cons, inductionHypothesis]
      exact congrArg (· :: _) (funext same)

/-- The dash that stands for no endpoint is no cell. -/
theorem cellOf_getD (text other : List Char) :
    (cellOf text).getD ['-'] = (cellOf other).getD ['-'] ↔
    cellOf text = cellOf other := by
  have solid : ∀ text, cellOf text ≠ some ['-'] := by
    intro text found
    rw [cellOf] at found
    split at found
    · cases found
    · next filled =>
      rw [Option.some.inj found] at filled
      exact filled (by decide)
  refine ⟨fun same => ?_, fun same => by rw [same]⟩
  have left := solid text
  have right := solid other
  cases one : cellOf text with
  | none =>
      cases two : cellOf other with
      | none => rfl
      | some name =>
          rw [one, two, Option.getD_none, Option.getD_some] at same
          rw [two, ← same] at right
          exact absurd rfl right
  | some name =>
      cases two : cellOf other with
      | none =>
          rw [one, two, Option.getD_none, Option.getD_some] at same
          rw [one, same] at left
          exact absurd rfl left
      | some name' =>
          rw [one, two, Option.getD_some, Option.getD_some] at same
          rw [same]

/-- The endpoint of a record in an object tells its names. -/
theorem member_names {value other : Value} (isSet : value.IsSet) (isSet' : other.IsSet) :
    (value.member readers).getD ['-'] = (other.member readers).getD
      ['-'] ↔ value = other := by
  refine ⟨fun same => ?_, fun same => by rw [same]⟩
  have unset : (Value.unset.member readers).getD ['-'] = ['-'] := rfl
  have solid : ∀ items, objectText readers.toText items ≠ ['-'] := fun items same => by
    have bracket : '[' ≠ '-' := by decide
    exact bracket (List.cons.inj same).1
  cases value with
  | unset =>
      cases other with
      | unset => rfl
      | set items =>
          rw [unset, set_member, Option.getD_some] at same
          exact absurd same.symm (solid items)
      | text content => cases isSet'
      | count number => cases isSet'
      | other written parsed => cases isSet'
  | set items =>
      cases other with
      | unset =>
          rw [unset, set_member, Option.getD_some] at same
          exact absurd same (solid items)
      | set items' =>
          rw [set_member, set_member, Option.getD_some, Option.getD_some] at same
          rw [objectText_injective readers.toText same]
      | text content => cases isSet'
      | count number => cases isSet'
      | other written parsed => cases isSet'
  | text content => cases isSet
  | count number => cases isSet
  | other written parsed => cases isSet

/-- As many endpoints are told apart in columns as in objects exactly when no two
different sets of names have one cell in columns. -/
theorem endpoints_eq_iff (typed : ∀ record ∈ records, Typed .x509 record) :
    endpoints .x509 (records.map columnCells) =
        endpoints .x509 (records.map (memberCells readers)) ↔
      ∀ record ∈ records, ∀ other ∈ records,
        (record "san.dns").column = (other "san.dns").column →
          record "san.dns" = other "san.dns" := by
  have columns : endpoints .x509 (records.map columnCells) = (records.map fun record =>
      ((record "san.dns").column).getD ['-']).dedup.length := by
    rw [endpoints, List.map_map]
    exact congrArg (fun names : List (List Char) =>
      names.dedup.length) (List.map_congr_left
      fun record _ => congrArg (·.getD ['-']) (Option.or_none ..))
  have objects : endpoints .x509 (records.map (memberCells readers)) =
      (records.map fun record =>
        ((record "san.dns").member readers).getD ['-']).dedup.length := by
    rw [endpoints, List.map_map]
    exact congrArg (fun names : List (List Char) =>
      names.dedup.length) (List.map_congr_left
      fun record _ => congrArg (·.getD ['-']) (Option.or_none ..))
  have names : ∀ record ∈ records, (record "san.dns").IsSet :=
    fun record member => (typed record member).names rfl
  rw [columns, objects, length_dedup_eq_iff]
  · refine forall₂_congr fun record member => forall₂_congr fun other member' => ?_
    rw [member_names (names record member) (names other member')]
    exact imp_congr_left
      (cellOf_getD (record "san.dns").written (other "san.dns").written)
  · intro record member other member' same
    rw [(member_names (names record member) (names other member')).mp same]

/-- Names apart, an `x509.log` has no endpoint. -/
theorem sightings_eq (typed : ∀ record ∈ records, Typed source record)
    (unseen : source = .x509 → ∀ record ∈ records, record "san.dns" ≠ .unset →
      sight .x509 (columnCells record) = []) :
    (records.map columnCells).flatMap (sightings source) =
      (records.map (memberCells readers)).flatMap (sightings source) := by
  rw [List.flatMap_map, List.flatMap_map]
  refine List.flatMap_congr fun record member => ?_
  have same := @Typed.sight_eq readers _ _ (typed record member)
  rw [sightings, sightings, ← same]
  cases source with
  | ssl => rw [(typed record member).place_eq]
  | x509 =>
      by_cases unset : record "san.dns" = .unset
      · have none_ : columnCells record "san.dns" =
            memberCells readers record "san.dns" := by
          rw [columnCells, memberCells, unset]
          exact column_eq_member trivial
        rw [place, place, none_]
      · rw [unseen rfl record member unset]
        rfl

theorem ReadAlike.agree (fits : layout.Fits readers records)
    (typed : ∀ record ∈ records, Typed source record)
    (isJson : IsJsonFile readers records file)
    (alike : ReadAlike source layout records) :
    Agree readers source (layout.file records) file := by
  have whole : records.take maxLinesPerFile = records := by
    rcases alike.fit with rfl | fit
    · rfl
    · exact List.take_of_length_le (by omega)
  have findings : emission source (records.map columnCells) =
      emission source (records.map (memberCells readers)) := by
    rw [emission, emission, sightings_eq typed alike.unseen]
  have counts : endpoints source (records.map columnCells) =
      endpoints source (records.map (memberCells readers)) := by
    cases source with
    | x509 => exact (endpoints_eq_iff typed).mpr (alike.apart rfl)
    | ssl =>
        rw [endpoints, endpoints, List.map_map, List.map_map]
        refine congrArg (fun names : List (List Char) => names.dedup.length)
          (List.map_congr_left fun record member => ?_)
        rw [Function.comp, Function.comp, (typed record member).place_eq]
  rw [Agree, run_file fits alike.fit alike.rows, run_json isJson, whole, outcome,
    outcome, findings, counts, List.length_map, List.length_map]
  simp only [List.map_eq_nil_iff]

/-! ### The other direction -/

theorem finding_mem_outcome {all : List (String → Option (List Char))} {view : View}
    (member : view ∈ (outcome source all).map Event.view) :
    (∃ observed ∈ (emission source all).reports, view = (Event.finding observed).view) ∨
      view = .counts source all.length (endpoints source all) ∨ view = .truncated := by
  obtain ⟨event, inside, rfl⟩ := List.mem_map.mp member
  rw [outcome, List.mem_append] at inside
  rcases inside with finding | rest
  · obtain ⟨observed, reported, rfl⟩ := List.mem_map.mp finding
    exact .inl ⟨observed, reported, rfl⟩
  · right
    split at rest
    · rw [List.mem_singleton.mp rest]
      exact .inr rfl
    · rcases List.mem_append.mp rest with counts | note
      · split at counts
        · cases counts
        · rw [List.mem_singleton.mp counts]
          exact .inl rfl
      · split at note
        · rw [List.mem_singleton.mp note]
          exact .inr rfl
        · cases note

/-- Few observations do not reach the cap. -/
theorem emission_open {all : List (String → Option (List Char))}
    (few : (all.map fun cells => (sight source cells).length).sum ≤ maxFindings) :
    (emission source all).capped = false := by
  refine (Reporting.capped_of_length_le ?_).1
  rw [List.length_flatMap]
  simpa [sightings] using few

/-- The counts of a log that is not cut off. -/
theorem counts_mem_outcome {all : List (String → Option (List Char))}
    (open_ : (emission source all).capped = false) (filled : all ≠ []) :
    Event.ingested source all.length (endpoints source all) ∈ outcome source all := by
  rw [outcome, open_]
  simp [filled]

theorem few_members (typed : ∀ record ∈ records, Typed source record)
    (few : (records.map fun record => (sight source (columnCells record)).length).sum ≤
      maxFindings)
    (count : Nat) : (((records.take count).map (memberCells readers)).map fun cells =>
      (sight source cells).length).sum ≤ maxFindings := by
  refine Nat.le_trans ?_ few
  rw [List.map_map]
  have same : (records.take count).map ((fun cells => (sight source cells).length) ∘
      memberCells readers) = (records.take count).map fun record =>
        (sight source (columnCells record)).length :=
    List.map_congr_left fun record member => by
      rw [Function.comp,
        @Typed.sight_eq readers _ _ (typed record (List.mem_of_mem_take member))]
  rw [same]
  conv_rhs => rw [← List.take_append_drop count records, List.map_append, List.sum_append]
  exact Nat.le_add_right _ _

/-- Files that agree have the same rows. -/
theorem Agree.rows (fits : layout.Fits readers records)
    (typed : ∀ record ∈ records, Typed source record)
    (isJson : IsJsonFile readers records file)
    (few : (records.map fun record => (sight source (columnCells record)).length).sum ≤
      maxFindings)
    (agree : Agree readers source (layout.file records) file) :
    (records = [] ∨ layout.header.length + records.length ≤ maxLinesPerFile) ∧
      ∀ record ∈ records, startsWith (layout.row record) "#" = false := by
  by_cases empty : records = []
  · rw [empty]
    exact ⟨.inl rfl, nofun⟩
  have filled : (records.take maxLinesPerFile).map (memberCells readers) ≠ [] := by
    obtain ⟨record, rest, rfl⟩ := List.exists_cons_of_ne_nil empty
    exact List.cons_ne_nil _ _
  have counted : View.counts source
      ((records.take maxLinesPerFile).map (memberCells readers)).length
      (endpoints source ((records.take maxLinesPerFile).map (memberCells readers))) ∈
        (run readers source (layout.file records)).map Event.view := by
    rw [agree, run_json isJson]
    exact @List.mem_map_of_mem _ _ _ _ Event.view
      (counts_mem_outcome (emission_open (few_members typed few _)) filled)
  obtain ⟨event, member, same⟩ := List.mem_map.mp counted
  have read : ((records.take maxLinesPerFile).map (memberCells readers)).length =
      (iterRows readers (layout.file records)).1.length := by
    cases event with
    | finding observed => cases same
    | truncated => cases same
    | ingested source' rows count =>
        cases same
        exact ingested_mem_run member
  have bound := fits.length_iterRows_file
  rw [← read, List.length_map, List.length_take] at bound
  have header : 0 < layout.header.length := by
    rw [Layout.header, List.length_append, List.length_append, List.length_singleton]
    omega
  have some_ := List.length_pos_iff.mpr empty
  have positive : 0 < maxLinesPerFile := by decide
  have short := (List.length_filter_le (fun line => !startsWith line "#")
    ((records.map layout.row).take (maxLinesPerFile - layout.header.length)))
  rw [List.length_take, List.length_map] at short
  have fit : layout.header.length + records.length ≤ maxLinesPerFile := by omega
  refine ⟨.inr fit, fun record member => ?_⟩
  by_contra comment
  rw [List.take_of_length_le (by rw [List.length_map]; omega)] at bound
  have fewer := (@List.length_filter_lt_length_iff_exists _ (fun line =>
    !startsWith line "#") _).mpr
    ⟨layout.row record, List.mem_map_of_mem member, by simpa using comment⟩
  rw [List.length_map] at fewer
  omega

/-- A record with names in which something is observed. -/
def Shows (record : Record) : Prop :=
  record "san.dns" ≠ .unset ∧ sight .x509 (columnCells record) ≠ []

/-- The names of a record in an object. -/
def objectNames (readers : Readers) (record : Record) : List Char :=
  (memberCells readers record "san.dns").getD []

/-- The names in an object have more brackets than in a column. -/
theorem Typed.names_brackets {record : Record} (typed : Typed .x509 record)
    (present : record "san.dns" ≠ .unset) :
    memberCells readers record "san.dns" = some (objectNames readers record) ∧
      brackets ((columnCells record "san.dns").getD []) < brackets
        (objectNames readers record) := by
  have isSet := typed.names rfl
  rw [objectNames, columnCells, memberCells]
  cases value : record "san.dns" with
  | unset => exact absurd value present
  | set items =>
      rw [set_member]
      exact ⟨rfl, brackets_set readers.toText items⟩
  | text content => rw [value] at isSet; cases isSet
  | count number => rw [value] at isSet; cases isSet
  | other written parsed => rw [value] at isSet; cases isSet

theorem endpoint_of_brackets {context : Context} {text : List Char}
    (some_ : 0 < brackets text)
    {unknown other : String} (plain : brackets unknown.toList = 0)
    (endpoint : context.endpoint unknown = text) :
    context.server.or context.respH = some text ∧ context.endpoint other = text := by
  rw [Context.endpoint] at endpoint ⊢
  cases found : context.server.or context.respH with
  | none =>
      rw [found, Option.getD_none] at endpoint
      rw [← endpoint, plain] at some_
      cases some_
  | some name =>
      rw [found, Option.getD_some] at endpoint
      exact ⟨congrArg some endpoint, endpoint⟩

/-- If the findings agree, the names of a record that shows something in an object are
those of another in a column. -/
theorem Agree.climb (typed : ∀ record ∈ records, Typed .x509 record)
    (few : (records.map fun record => (sight .x509 (columnCells record)).length).sum ≤
      maxFindings)
    (agree : (outcome .x509 (records.map columnCells)).map Event.view =
      (outcome .x509 (records.map (memberCells readers))).map Event.view)
    {record : Record} (member : record ∈ records) (shows : Shows record) :
    ∃ other ∈ records, Shows other ∧
      brackets (objectNames readers record) < brackets (objectNames readers other) := by
  obtain ⟨named, more⟩ := @Typed.names_brackets readers _ (typed record member) shows.1
  have some_ : 0 < brackets (objectNames readers record) := by omega
  obtain ⟨obs, rest, seen⟩ := List.exists_cons_of_ne_nil shows.2
  -- the finding of the record in the objects
  have item : (⟨.x509, place .x509 (memberCells readers record), obs⟩ : Observed) ∈
      (records.map (memberCells readers)).flatMap (sightings .x509) := by
    refine List.mem_flatMap.mpr ⟨_, List.mem_map_of_mem member, ?_⟩
    rw [sightings, ← (typed record member).sight_eq, seen]
    exact List.mem_cons_self
  have open_ : (emission .x509 (records.map (memberCells readers))).capped = false := by
    have all := @few_members readers .x509 records typed few records.length
    rw [List.take_length] at all
    exact emission_open all
  obtain ⟨first, isFirst, key⟩ :=
    @Reporting.exists_isFirst _ _ _ Observed.key _ _ ⟨_, item, rfl⟩
  have reported := ((Reporting.run_spec open_).2 first).mpr isFirst
  have plain : brackets "-".toList = 0 ∧ brackets "unknown".toList = 0 := by decide
  have endpoint : first.context.endpoint "unknown" = objectNames readers record := by
    refine (endpoint_of_brackets some_ plain.1 ?_).2
    refine (congrArg Prod.fst key).trans ?_
    change ((memberCells readers record "san.dns").or none).getD _ = _
    rw [named]
    rfl
  -- and the same finding in the columns
  have view : (Event.finding first).view ∈
      (outcome .x509 (records.map columnCells)).map Event.view := by
    rw [agree, outcome]
    exact List.mem_map_of_mem (List.mem_append_left _ (List.mem_map_of_mem reported))
  have columnsOpen : (emission .x509 (records.map columnCells)).capped = false := by
    refine emission_open ?_
    rw [List.map_map]
    exact few
  rcases finding_mem_outcome view with ⟨observed, reported', same⟩ | other | other
  · have inside := (((Reporting.run_spec columnsOpen).2 observed).mp reported').mem
    obtain ⟨cells, present, here⟩ := List.mem_flatMap.mp inside
    obtain ⟨record', member', rfl⟩ := List.mem_map.mp present
    obtain ⟨obs', seen', rfl⟩ := List.mem_map.mp here
    have names := (View.finding.inj same).1
    rw [endpoint] at names
    obtain ⟨column, -⟩ := @endpoint_of_brackets _ _ some_ _ "-" plain.2 names.symm
    have column : columnCells record' "san.dns" = some (objectNames readers record) := by
      rw [← column]
      exact (Option.or_none).symm
    have shows' : Shows record' := by
      refine ⟨fun unset => ?_, List.ne_nil_of_mem seen'⟩
      have none_ : columnCells record' "san.dns" = none := by
        rw [columnCells, unset]
        decide
      rw [none_] at column
      cases column
    refine ⟨record', member', shows', ?_⟩
    have more' := (@Typed.names_brackets readers _ (typed record' member') shows'.1).2
    rwa [column, Option.getD_some] at more'
  · cases other
  · cases other

/-- If the findings agree, nothing is observed in a record with names. -/
theorem Agree.unseen (typed : ∀ record ∈ records, Typed .x509 record)
    (few : (records.map fun record => (sight .x509 (columnCells record)).length).sum ≤
      maxFindings)
    (agree : (outcome .x509 (records.map columnCells)).map Event.view =
      (outcome .x509 (records.map (memberCells readers))).map Event.view)
    {record : Record} (member : record ∈ records) (present : record "san.dns" ≠ .unset) :
    sight .x509 (columnCells record) = [] := by
  by_contra seen
  -- the brackets of the names would grow without bound
  have grows : ∀ count, ∃ other ∈ records, Shows other ∧
      count ≤ brackets (objectNames readers other) := by
    intro count
    induction count with
    | zero => exact ⟨record, member, ⟨present, seen⟩, Nat.zero_le _⟩
    | succ count inductionHypothesis =>
        obtain ⟨other, inside, shows, enough⟩ := inductionHypothesis
        obtain ⟨next, inside', shows', more⟩ := Agree.climb typed few agree inside shows
        exact ⟨next, inside', shows', by omega⟩
  obtain ⟨other, inside, -, enough⟩ :=
    grows ((records.map fun record => brackets (objectNames readers record)).sum + 1)
  obtain ⟨front, back, split⟩ := List.append_of_mem inside
  rw [split, List.map_append, List.map_cons, List.sum_append, List.sum_cons] at enough
  omega

/-- The records of a log mean the same in columns and as objects if the file in columns is
not too long, no row looks like a comment and the names of an `x509.log` do not matter;
and with at most as many observations as are emitted only then. -/
theorem agree_iff_readAlike (fits : layout.Fits readers records)
    (typed : ∀ record ∈ records, Typed source record)
    (isJson : IsJsonFile readers records file) :
    (ReadAlike source layout records →
      Agree readers source (layout.file records) file) ∧
    ((records.map fun record => (sight source (columnCells record)).length).sum ≤
      maxFindings →
      Agree readers source (layout.file records) file →
        ReadAlike source layout records) := by
  refine ⟨ReadAlike.agree fits typed isJson, fun few agree => ?_⟩
  obtain ⟨fit, rows⟩ := Agree.rows fits typed isJson few agree
  have whole : records.take maxLinesPerFile = records := by
    rcases fit with rfl | fit
    · rfl
    · exact List.take_of_length_le (by omega)
  have outcomes := agree
  rw [Agree, run_file fits fit rows, run_json isJson, whole] at outcomes
  refine ⟨fit, rows, ?_, ?_⟩
  · rintro rfl record member present
    exact Agree.unseen typed few outcomes member present
  · rintro rfl
    rw [← @endpoints_eq_iff readers _ typed]
    by_cases empty : records = []
    · rw [empty]
      rfl
    have counted : View.counts .x509 (records.map (memberCells readers)).length
        (endpoints .x509 (records.map (memberCells readers))) ∈
          (outcome .x509 (records.map columnCells)).map Event.view := by
      have all := @few_members readers .x509 records typed few records.length
      rw [List.take_length] at all
      rw [outcomes]
      exact @List.mem_map_of_mem _ _ _ _ Event.view
        (counts_mem_outcome (emission_open all) (by simpa using empty))
    rcases finding_mem_outcome counted with ⟨observed, -, same⟩ | same | same
    · cases same
    · exact (View.counts.inj same).2.2.symm
    · cases same

end Agreement

/-! ### Two logs -/

/-- A record of a certificate, from the name of its signature algorithm and its names. -/
def certRecord (cert : String × Value) : Record := fun name =>
  if name = "certificate.sig_alg" then .text cert.1.toList
  else if name = "san.dns" then cert.2 else .unset

/-- The members of its object. -/
def certMembers (cert : String × Value) : List (String × Json) :=
  ("certificate.sig_alg", .str cert.1) ::
    cert.2.parsed.toList.map fun value => ("san.dns", value)

/-- A layout with two columns, separated by tabs. -/
def twoColumns : Layout where
  separator := '\t'
  columns := ["san.dns".toList, "certificate.sig_alg".toList]
  escape := none
  before := []
  between := []
  behind := []

/-- Lines of a log with the certificates on them. -/
def certLines : List (List Char × String × Value) :=
  [("\x7b\"certificate.sig_alg\":\"sha1WithRSAEncryption\"\x7d".toList,
      "sha1WithRSAEncryption", .unset),
    ("\x7b\"certificate.sig_alg\":\"sha1WithRSAEncryption\",\"san.dns\":[\"a.example\"]\x7d".toList,
      "sha1WithRSAEncryption", .set ["a.example".toList]),
    ("\x7b\"certificate.sig_alg\":\"HSS-LMS\",\"san.dns\":[\"b.example\",\"c.example\"]\x7d".toList,
      "HSS-LMS", .set ["b.example".toList, "c.example".toList]),
    ("\x7b\"certificate.sig_alg\":\"HSS-LMS\",\"san.dns\":[\"d.example\"]\x7d".toList,
      "HSS-LMS", .set ["d.example".toList])]

/-- The records of a log. -/
def recordsOf (log : List (List Char × String × Value)) : List Record :=
  log.map fun entry => certRecord entry.2

/-- The log as lines of JSON. -/
def objectsOf (log : List (List Char × String × Value)) : List (List Char) :=
  log.map fun entry => entry.1 ++ ['\n']

/-- Readers that load these lines only. -/
def certReaders : Readers where
  toText := asciiText
  loads line := (certLines.find? fun entry => entry.1 = line).map fun entry =>
    .object (certMembers entry.2)
  unicodeEscape _ := none

theorem certRecord_typed {cert : String × Value} (isSet : cert.2.IsSet) :
    Typed .x509 (certRecord cert) where
  plain := by
    intro name member
    simp only [plainFields, List.mem_cons, List.not_mem_nil, or_false] at member
    rcases member with rfl | rfl | rfl <;> simp [certRecord, Value.Plain]
  names := by
    intro _
    simpa [certRecord] using isSet

/-- A text that may stand in a column. -/
def Fitting (text : List Char) : Prop := '\t' ∉ text ∧ IsLine text

instance (text : List Char) : Decidable (Fitting text) :=
  inferInstanceAs (Decidable (_ ∧ _))

theorem twoColumns_fits {log : List (List Char × String × Value)} (values : ∀ entry ∈ log,
      Fitting (writtenText entry.2.1.toList) ∧ Fitting entry.2.2.written) :
    twoColumns.Fits certReaders (recordsOf log) where
  escape := .inl ⟨rfl, rfl⟩
  distinct := by decide
  filled := List.cons_ne_nil _ _
  complete := by
    intro record member name present
    obtain ⟨entry, -, rfl⟩ := List.mem_map.mp member
    rw [certRecord] at present
    split at present
    · next same =>
      rw [same]
      decide
    · split at present
      · next same =>
        rw [same]
        decide
      · exact absurd rfl present
  names := by decide
  values := by
    intro record inside name member
    obtain ⟨entry, here, rfl⟩ := List.mem_map.mp inside
    obtain ⟨alg, names⟩ := values entry here
    simp only [twoColumns, List.mem_cons, List.not_mem_nil, or_false] at member
    rcases member with rfl | rfl
    · rw [String.ofList_toList]
      exact names
    · rw [String.ofList_toList]
      exact alg
  newline := by decide
  remarks := nofun

theorem get?_certMembers (cert : String × Value) (name : String) :
    (Dict.ofList (certMembers cert)).get? name = (certRecord cert name).parsed := by
  obtain ⟨alg, names⟩ := cert
  rw [Dict.get?_ofList, certRecord, certMembers]
  by_cases sig : name = "certificate.sig_alg"
  · cases names.parsed <;> simp [sig, Value.parsed]
  · by_cases dns : name = "san.dns"
    · cases parsed : names.parsed <;> simp [dns, parsed]
    · cases parsed : names.parsed <;>
        simp [Ne.symm sig, Ne.symm dns, sig, dns, Value.parsed]

theorem certLines_loads {entry : List Char × String × Value}
    (member : entry ∈ certLines) :
    certReaders.loads entry.1 = some (.object (certMembers entry.2)) := by
  have distinct : (certLines.map Prod.fst).Nodup := by decide
  have found : (certLines.find? fun other => other.1 = entry.1).isSome = true :=
    List.find?_isSome.mpr ⟨entry, member, by simp⟩
  obtain ⟨first, first_⟩ := Option.isSome_iff_exists.mp found
  have same : first = entry := List.inj_on_of_nodup_map distinct
    (List.mem_of_find?_eq_some first_) member (by simpa using List.find?_some first_)
  rw [← same]
  rw [← same] at first_
  change (certLines.find? _).map _ = _
  rw [first_]
  rfl

theorem certLines_json {log : List (List Char × String × Value)}
    (lines : log ⊆ certLines) :
    IsJsonFile certReaders (recordsOf log) (objectsOf log) := by
  have solid : ∀ entry ∈ certLines, IsLine entry.1 ∧ opensObject entry.1 = true := by
    decide
  induction log with
  | nil => exact .nil
  | cons entry log inductionHypothesis =>
      rw [List.cons_subset] at lines
      obtain ⟨isLine, opens⟩ := solid entry lines.1
      exact .cons ⟨_, rfl, isLine, opens, _, certLines_loads lines.1,
        get?_certMembers entry.2⟩
        (inductionHypothesis lines.2)

/-- A weak certificate without names and two others with names. -/
def quietLog : List (List Char × String × Value) := certLines.eraseIdx 1

theorem forall_quietLog {property : List Char × String × Value → Prop}
    (weak : property certLines[0]) (two : property certLines[2])
    (one : property certLines[3]) :
    ∀ entry ∈ quietLog, property entry := by
  change ∀ entry ∈ [certLines[0], certLines[2], certLines[3]], property entry
  intro entry member
  rw [List.mem_cons, List.mem_cons, List.mem_singleton] at member
  rcases member with rfl | rfl | rfl
  · exact weak
  · exact two
  · exact one

theorem quietLog_agrees : Agree certReaders .x509 (twoColumns.file (recordsOf quietLog))
    (objectsOf quietLog) := by
  have fits : twoColumns.Fits certReaders (recordsOf quietLog) :=
    twoColumns_fits (forall_quietLog (by decide) (by decide) (by decide))
  have typed : ∀ record ∈ recordsOf quietLog, Typed .x509 record := by
    refine List.forall_mem_map.mpr (forall_quietLog ?_ ?_ ?_) <;>
      exact certRecord_typed trivial
  have isJson : IsJsonFile certReaders (recordsOf quietLog) (objectsOf quietLog) :=
    certLines_json List.eraseIdx_subset
  refine (agree_iff_readAlike fits typed isJson).1 ⟨.inr (by decide), ?_, fun _ =>
    ?_, fun _ => ?_⟩
  · exact List.forall_mem_map.mpr (forall_quietLog (by decide) (by decide) (by decide))
  · refine List.forall_mem_map.mpr (forall_quietLog ?_ ?_ ?_)
    · exact fun present => absurd rfl present
    · exact fun _ => by decide +kernel
    · exact fun _ => by decide +kernel
  · have distinct : (quietLog.map fun entry => entry.2.2.column).Nodup := by decide
    refine List.forall_mem_map.mpr fun entry member => ?_
    refine List.forall_mem_map.mpr fun other member' same => ?_
    rw [List.inj_on_of_nodup_map distinct member member' same]

/-- A weak certificate with a name. -/
def namedLog : List (List Char × String × Value) := [certLines[1]]

/-- A weak certificate with a name has another endpoint in each encoding. -/
theorem namedLog_differs :
    twoColumns.Fits certReaders (recordsOf namedLog) ∧
      (∀ record ∈ recordsOf namedLog, Typed .x509 record) ∧
        IsJsonFile certReaders (recordsOf namedLog) (objectsOf namedLog) ∧
          ¬ Agree certReaders .x509 (twoColumns.file (recordsOf namedLog))
            (objectsOf namedLog) := by
  refine ⟨twoColumns_fits (by decide), ?_, certLines_json ?_, ?_⟩
  · exact List.forall_mem_map.mpr
      (List.forall_mem_singleton.mpr (certRecord_typed trivial))
  · exact List.cons_subset.mpr ⟨List.getElem_mem _, List.nil_subset _⟩
  · rw [Agree]
    decide +kernel

end FsZeekLogs
end Probes
end PqcScan
