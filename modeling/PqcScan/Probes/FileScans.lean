import PqcScan.Core.Types
import PqcScan.Library.Capping
import PqcScan.Python.Files

/-!
# Scans of files

The loop that the probes for infrastructure code share: over the roots, over the files of
a root, each of them once, and over what a file reports, up to a limit for each file.
-/

namespace PqcScan
namespace Probes

open Library Python PqcScan.Core

/-- `_EXCLUDE_DIRS`. -/
def excludeDirs : List String := [".git", ".terraform", "node_modules", "vendor"]

/-- `_MAX_PER_FILE`. -/
def maxPerFile : Nat := 200

/-- A probe that reads files one after the other. -/
structure FileProbe where
  /-- For each `rglob` of `_iter_files`, what it takes by name. -/
  patterns : List (Path → Bool)
  /-- The findings of a file, and how its loop ends. -/
  scanFile : Path → List Char → List Finding × Ending
  /-- Whether an ending is one of `run`. -/
  halts : Ending → Bool

/-- What the loop of `run` has done. -/
structure Walk where
  seen : List Path
  emitted : List Finding
  ended : Bool

/-- Before the first file. -/
def Walk.start : Walk := ⟨[], [], false⟩

namespace FileProbe

variable (probe : FileProbe) (files : FileSystem)

/-- `_iter_files`. -/
def iterFiles (root : Path) : List Path :=
  probe.patterns.flatMap fun takes => (files.below root).filter fun path =>
    takes path && !path.parts.any (excludeDirs.contains ·) && files.isFile path

/-- The files of a root. -/
def filesOf (root : Path) : List Path :=
  if !files.exists_ root then []
  else if files.isFile root then [root]
  else probe.iterFiles files root

/-- The body of the loop over the files; nothing happens in it once `run` has ended. -/
def visit (walk : Walk) (path : Path) : Walk :=
  if walk.ended then walk
  else if path ∈ walk.seen then walk
  else
    let seen := walk.seen ++ [path]
    match files.readText path with
    | none => { walk with seen := seen }
    | some text =>
        let (found, ending) := probe.scanFile path text
        ⟨seen, walk.emitted ++ found, probe.halts ending⟩

/-- `run`. -/
def run (roots : List Path) : List Finding :=
  (roots.foldl (fun walk root =>
    (probe.filesOf files root).foldl (probe.visit files) walk)
    Walk.start).emitted

/-- The files that are read, in visiting order, if nothing ends the loop. -/
def visits : List Path → List Path → List Path
  | _, [] => []
  | seen, path :: paths =>
      if path ∈ seen then visits seen paths
      else if (files.readText path).isSome then path :: visits (seen ++ [path]) paths
      else visits (seen ++ [path]) paths

/-- The files of a run in visiting order. -/
def visited (roots : List Path) : List Path :=
  visits files [] (roots.flatMap (probe.filesOf files))

/-- What the scan of a file gives. -/
def outcome (path : Path) : List Finding × Ending :=
  ((files.readText path).map (probe.scanFile path)).getD ([], .finished)

/-- The scan of the file ends the run. -/
def ends (path : Path) : Bool := probe.halts (probe.outcome files path).2

variable {probe files}

theorem outcome_of_readText {path : Path} {text : List Char}
    (read : files.readText path = some text) :
    probe.outcome files path = probe.scanFile path text := by
  rw [outcome, read, Option.map_some, Option.getD_some]

theorem isFile_of_mem {roots : List Path} {path : Path}
    (member : path ∈ probe.visited files roots) : files.isFile path = true := by
  have candidate : ∀ seen paths, path ∈ visits files seen paths → path ∈ paths := by
    intro seen paths
    induction paths generalizing seen with
    | nil => exact id
    | cons first paths inductionHypothesis =>
        intro member
        rw [visits] at member
        split at member
        · exact List.mem_cons_of_mem _ (inductionHypothesis _ member)
        · split at member
          · rcases List.mem_cons.mp member with rfl | later
            · exact List.mem_cons_self
            · exact List.mem_cons_of_mem _ (inductionHypothesis _ later)
          · exact List.mem_cons_of_mem _ (inductionHypothesis _ member)
  obtain ⟨root, -, within⟩ := List.mem_flatMap.mp (candidate _ _ member)
  rw [filesOf] at within
  split at within
  · cases within
  · split at within
    · next isFile =>
      rw [List.mem_singleton.mp within]
      exact isFile
    · obtain ⟨takes, -, listed⟩ := List.mem_flatMap.mp within
      have kept := (List.mem_filter.mp listed).2
      rw [Bool.and_eq_true] at kept
      exact kept.2

theorem readText_of_mem {roots : List Path} {path : Path}
    (member : path ∈ probe.visited files roots) :
    (files.readText path).isSome = true := by
  have readable : ∀ seen paths, path ∈ visits files seen paths →
      (files.readText path).isSome = true := by
    intro seen paths
    induction paths generalizing seen with
    | nil => nofun
    | cons first paths inductionHypothesis =>
        intro member
        rw [visits] at member
        split at member
        · exact inductionHypothesis _ member
        · split at member
          · next isSome =>
            rcases List.mem_cons.mp member with rfl | later
            · exact isSome
            · exact inductionHypothesis _ later
          · exact inductionHypothesis _ member
  exact readable _ _ member

theorem foldl_visit_ended {walk : Walk} (ended : walk.ended = true) (paths : List Path) :
    paths.foldl (probe.visit files) walk = walk := by
  induction paths with
  | nil => rfl
  | cons path paths inductionHypothesis =>
      have same : probe.visit files walk path = walk := by rw [visit, if_pos ended]
      rw [List.foldl_cons, same, inductionHypothesis]

/-- The loop collects what the files report, up to one that ends it. -/
theorem foldl_visit (seen : List Path) (emitted : List Finding) (paths : List Path) :
    (paths.foldl (probe.visit files) ⟨seen, emitted, false⟩).emitted = emitted ++
      collected (probe.ends files) (fun path => (probe.outcome files path).1)
        (visits files seen paths) := by
  induction paths generalizing seen emitted with
  | nil => simp [visits, collected]
  | cons path paths inductionHypothesis =>
      rw [List.foldl_cons, visit, visits, if_neg Bool.false_ne_true]
      by_cases old : path ∈ seen
      · rw [if_pos old, if_pos old, inductionHypothesis]
      · rw [if_neg old, if_neg old]
        cases read : files.readText path with
        | none => exact inductionHypothesis _ _
        | some text =>
            rw [Option.isSome_some, if_pos rfl, collected, ends, outcome_of_readText read]
            cases halted : probe.halts (probe.scanFile path text).2 with
            | true =>
                rw [if_pos rfl, List.append_nil]
                simp only [halted]
                rw [foldl_visit_ended rfl]
            | false =>
                simp only [halted]
                rw [inductionHypothesis, List.append_assoc]
                rfl

theorem run_eq (roots : List Path) :
    probe.run files roots = collected (probe.ends files)
      (fun path => (probe.outcome files path).1) (probe.visited files roots) := by
  rw [run, ← List.foldl_flatMap, Walk.start, foldl_visit, List.nil_append]
  rfl

/-- A file scanned alone. -/
theorem run_alone {roots : List Path} {path : Path}
    (member : path ∈ probe.visited files roots) :
    probe.run files [path] = (probe.outcome files path).1 := by
  have isFile := isFile_of_mem member
  have here : probe.visited files [path] = [path] := by
    rw [visited, List.flatMap_singleton, filesOf,
      files.exists_of_isFile path isFile, isFile]
    simp [visits, readText_of_mem member]
  rw [run_eq, here, collected, collected, ite_self, List.append_nil]

/-- A run reports what its files report alone, up to their limits, exactly when no file
that ends the run comes before one that reports something. -/
theorem run_eq_flatMap_iff
      (capped : ∀ path, (probe.outcome files path).1.length ≤ maxPerFile)
    (roots : List Path) :
    probe.run files roots = (probe.visited files roots).flatMap (fun path =>
        (probe.run files [path]).take maxPerFile) ↔
      NoneLost (probe.ends files) (probe.run files [·]) (probe.visited files roots) := by
  have alone : (probe.visited files roots).flatMap (fun path =>
      (probe.run files [path]).take maxPerFile) =
        (probe.visited files roots).flatMap fun path => (probe.outcome files path).1 := by
    apply List.flatMap_congr
    intro path member
    rw [run_alone member, List.take_of_length_le (capped path)]
  rw [alone, run_eq, collected_eq_flatMap_iff]
  refine forall_congr' fun front => forall_congr' fun source => forall_congr' fun back =>
    forall_congr' fun split => forall_congr' fun _ => forall₂_congr fun later member => ?_
  have within : later ∈ probe.visited files roots := by
    rw [split]
    exact List.mem_append_right _ (List.mem_cons_of_mem _ member)
  simp only [run_alone within]

end FileProbe

end Probes
end PqcScan
