import PqcScan.Library.Insertion

/-!
# Loops that report

A loop that reports on one item after another and ends at the first one it fails on.  The
question is when the items of one kind do not show: no report is about one of them, and
leaving any of them out changes no report.
-/

namespace PqcScan
namespace Library

variable {α β γ : Type}

/-- The reports of the loop; no list stands for a failure. -/
def reported (report : α → Option (List β)) : List α → List β
  | [] => []
  | item :: rest =>
      match report item with
      | none => []
      | some reports => reports ++ reported report rest

/-- No item of the kind is reported. -/
def Unreported (report : α → Option (List β)) (kind : α → Prop) (items : List α) : Prop :=
  ∀ front item back, items = front ++ item :: back → kind item →
    reported report (front ++ [item]) = reported report front

/-- Leaving out items of the kind changes no report. -/
def Removable (report : α → Option (List β)) (kind : α → Prop) (items : List α) : Prop :=
  ∀ fewer, Inserted kind fewer items → reported report fewer = reported report items

/-- Whichever items of the kind are left out, there is no report: each item up to the
first other one that fails is passed over or fails. -/
def Mute (passed failed kind : α → Prop) : List α → Prop
  | [] => True
  | item :: rest =>
      (passed item ∧ Mute passed failed kind rest) ∨
        (failed item ∧ (kind item → Mute passed failed kind rest))

/-- Up to the first other item that fails, each item of the kind is passed over, or fails
where what follows it is mute. -/
def Skippable (passed failed kind : α → Prop) : List α → Prop
  | [] => True
  | item :: rest =>
      (kind item → (passed item ∧ Skippable passed failed kind rest) ∨
        (failed item ∧ Mute passed failed kind rest)) ∧
      (¬ kind item → failed item ∨ Skippable passed failed kind rest)

section Reports

variable {report : α → Option (List β)} {items : List α}

@[simp] theorem reported_nil : reported report [] = [] := rfl

theorem reported_failed {item : α} (failed : report item = none) (rest : List α) :
    reported report (item :: rest) = [] := by
  rw [reported, failed]

theorem reported_some {item : α} {reports : List β}
    (succeeded : report item = some reports)
    (rest : List α) :
    reported report (item :: rest) = reports ++ reported report rest := by
  rw [reported, succeeded]

/-- Reports may be rewritten one by one. -/
theorem reported_map (change : β → γ) :
    reported (fun item => (report item).map (List.map change)) items =
      (reported report items).map change := by
  induction items with
  | nil => rfl
  | cons item rest inductionHypothesis =>
      rw [reported, reported]
      cases report item with
      | none => rfl
      | some reports =>
          rw [List.map_append, ← inductionHypothesis]
          rfl

theorem reported_comp (items : List γ) (item : γ → α) :
    reported (fun source => report (item source)) items = reported report
      (items.map item) := by
  induction items with
  | nil => rfl
  | cons source rest inductionHypothesis =>
      rw [List.map_cons, reported, reported, inductionHypothesis]

theorem reported_congr {other : α → Option (List β)}
    (same : ∀ item ∈ items, report item = other item) :
    reported report items = reported other items := by
  induction items with
  | nil => rfl
  | cons item rest inductionHypothesis =>
      rw [List.forall_mem_cons] at same
      rw [reported, reported, same.1, inductionHypothesis same.2]

theorem reported_singleton (item : α) :
    reported report [item] = (report item).getD [] := by
  rw [reported]
  cases report item with
  | none => rfl
  | some reports => exact List.append_nil reports

theorem exists_of_mem_reported {output : β} (member : output ∈ reported report items) :
    ∃ item ∈ items, ∃ reports, report item = some reports ∧ output ∈ reports := by
  induction items with
  | nil => cases member
  | cons item rest inductionHypothesis =>
      rw [reported] at member
      cases outcome : report item with
      | none =>
          rw [outcome] at member
          cases member
      | some reports =>
          rw [outcome] at member
          rcases List.mem_append.mp member with here | later
          · exact ⟨item, List.mem_cons_self, reports, outcome, here⟩
          · obtain ⟨other, inside, found⟩ := inductionHypothesis later
            exact ⟨other, List.mem_cons_of_mem _ inside, found⟩

/-- Items that are passed over may be left out. -/
theorem reported_filter {keep : α → Bool}
    (skips : ∀ item, keep item = false → report item = some []) :
    reported report (items.filter keep) = reported report items := by
  induction items with
  | nil => rfl
  | cons item rest inductionHypothesis =>
      rw [List.filter_cons]
      split
      · rw [reported, reported, inductionHypothesis]
      · next dropped =>
        rw [reported_some (skips item (by simpa using dropped)), inductionHypothesis]
        rfl

/-- What is behind a front of the list is reported unless the front fails. -/
theorem reported_append (front back : List α) :
    reported report (front ++ back) =
      if (∀ item ∈ front, (report item).isSome) then
        reported report front ++ reported report back
      else reported report front := by
  induction front with
  | nil => simp
  | cons item front inductionHypothesis =>
      rw [List.cons_append, reported, reported]
      cases outcome : report item with
      | none => simp [outcome]
      | some reports =>
          simp only [inductionHypothesis, List.forall_mem_cons, outcome,
            Option.isSome_some, true_and]
          split
          · rw [List.append_assoc]
          · rfl

end Reports

section Kinds

variable {report : α → Option (List β)} {passed failed kind : α → Prop} {items : List α}

/-- Where leaving out changes nothing, nothing of the kind is reported. -/
theorem unreported_of_removable (removable : Removable report kind items) :
    Unreported report kind items := by
  intro front item back equal marked
  rw [reported_append]
  split
  · next reached =>
    have without : Inserted kind (front ++ back) (front ++ item :: back) :=
      (Inserted.refl front).append (.insert marked (Inserted.refl back))
    rw [← equal] at without
    have same := removable _ without
    rw [equal, reported_append, reported_append, if_pos reached, if_pos reached,
      List.append_cancel_left_eq] at same
    cases outcome : report item with
    | none => rw [reported_failed outcome, List.append_nil]
    | some reports =>
        rw [reported_some outcome] at same
        have none : reports = [] := by
          have lengths := congrArg List.length same
          rw [List.length_append] at lengths
          exact List.length_eq_zero_iff.mp (by omega)
        rw [reported_some outcome, none, reported_nil, List.append_nil, List.append_nil]
  · rfl

variable (passes : ∀ item, report item = some [] ↔ passed item)
  (fails : ∀ item, report item = none ↔ failed item)

include passes fails

theorem mute_iff :
    Mute passed failed kind items ↔
      ∀ fewer, Inserted kind fewer items → reported report fewer = [] := by
  induction items with
  | nil =>
      refine iff_of_true trivial ?_
      rintro _ ⟨⟩
      rfl
  | cons item rest inductionHypothesis =>
      rw [Mute, inductionHypothesis]
      constructor
      · rintro (⟨passed, mute⟩ | ⟨failed, mute⟩) fewer inserted
        · cases inserted with
          | keep _ others =>
              rw [reported_some ((passes item).mpr passed), mute _ others]
              rfl
          | insert _ others => exact mute _ others
        · cases inserted with
          | keep _ others => exact reported_failed ((fails item).mpr failed) _
          | insert marked others => exact mute marked _ others
      · intro silent
        cases outcome : report item with
        | none =>
            refine Or.inr ⟨(fails item).mp outcome, ?_⟩
            intro marked fewer inserted
            exact silent _ (.insert marked inserted)
        | some reports =>
            have joined := fun fewer inserted =>
              silent _ (@Inserted.keep _ _ fewer _ item inserted)
            simp only [reported_some outcome, List.append_eq_nil_iff] at joined
            have none := (joined rest (Inserted.refl rest)).1
            rw [none] at outcome
            exact Or.inl ⟨(passes item).mp outcome, fun fewer inserted =>
              (joined fewer inserted).2⟩

theorem removable_iff :
    Removable report kind items ↔ Skippable passed failed kind items := by
  induction items with
  | nil =>
      refine iff_of_true ?_ trivial
      rintro _ ⟨⟩
      rfl
  | cons item rest inductionHypothesis =>
      rw [Skippable, ← inductionHypothesis, mute_iff passes fails]
      constructor
      · intro removable
        have kept : ∀ reports, report item = some reports →
            Removable report kind rest := by
          intro reports outcome fewer inserted
          have same := removable _ (.keep item inserted)
          rwa [reported_some outcome, reported_some outcome,
            List.append_cancel_left_eq] at same
        constructor
        · intro marked
          have dropped := fun fewer inserted =>
            removable fewer (@Inserted.insert _ _ fewer _ item marked inserted)
          cases outcome : report item with
          | none =>
              rw [reported_failed outcome] at dropped
              exact Or.inr ⟨(fails item).mp outcome, dropped⟩
          | some reports =>
              have same := dropped rest (Inserted.refl rest)
              rw [reported_some outcome, List.self_eq_append_left] at same
              rw [same] at outcome
              exact Or.inl ⟨(passes item).mp outcome, kept _ outcome⟩
        · intro _
          cases outcome : report item with
          | none => exact Or.inl ((fails item).mp outcome)
          | some reports => exact Or.inr (kept _ outcome)
      · rintro ⟨marks, others⟩ fewer inserted
        cases inserted with
        | @keep less _ _ inserted =>
            cases outcome : report item with
            | none => rw [reported_failed outcome, reported_failed outcome]
            | some reports =>
                have removable : Removable report kind rest := by
                  have succeeded : ¬ failed item := by
                    rw [← fails, outcome]
                    exact Option.some_ne_none reports
                  by_cases marked : kind item
                  · exact ((marks marked).resolve_right fun both => succeeded both.1).2
                  · exact (others marked).resolve_left succeeded
                rw [reported_some outcome, reported_some outcome, removable _ inserted]
        | insert marked inserted =>
            rcases marks marked with ⟨passed, removable⟩ | ⟨failed, mute⟩
            · rw [reported_some ((passes item).mpr passed), removable _ inserted]
              rfl
            · rw [reported_failed ((fails item).mpr failed), mute _ inserted]

end Kinds

/-! ## Loops that treat all items alike -/

/-- A loop without failures. -/
theorem skippable_of_total {passed failed kind : α → Prop} {items : List α}
    (total : ∀ item, ¬ failed item) :
    Skippable passed failed kind items ↔ ∀ item ∈ items, kind item → passed item := by
  induction items with
  | nil => simp [Skippable]
  | cons item rest inductionHypothesis =>
      rw [Skippable, inductionHypothesis, List.forall_mem_cons]
      have never := total item
      by_cases marked : kind item <;> simp [marked, never]

theorem mute_of_all {passed failed kind : α → Prop} {items : List α}
    (all : ∀ item ∈ items, kind item) :
    Mute passed failed kind items ↔ ∀ item ∈ items, passed item ∨ failed item := by
  induction items with
  | nil => simp [Mute]
  | cons item rest inductionHypothesis =>
      rw [List.forall_mem_cons] at all
      have later := inductionHypothesis all.2
      rw [Mute, later, List.forall_mem_cons, imp_iff_right all.1, or_and_right]

/-- A list all of whose items are of the kind. -/
theorem skippable_of_all {passed failed kind : α → Prop} {items : List α}
    (all : ∀ item ∈ items, kind item) :
    Skippable passed failed kind items ↔ ∀ item ∈ items, passed item ∨ failed item := by
  induction items with
  | nil => simp [Skippable]
  | cons item rest inductionHypothesis =>
      rw [List.forall_mem_cons] at all
      have later := inductionHypothesis all.2
      rw [Skippable, later, mute_of_all all.2, List.forall_mem_cons, imp_iff_right all.1,
        and_iff_left (fun other => absurd all.1 other), or_and_right]

/-- A list none of whose items is of the kind. -/
theorem skippable_of_none {passed failed kind : α → Prop} {items : List α}
    (none : ∀ item ∈ items, ¬ kind item) : Skippable passed failed kind items := by
  induction items with
  | nil => trivial
  | cons item rest inductionHypothesis =>
      rw [List.forall_mem_cons] at none
      exact ⟨fun marked => absurd marked none.1, fun _ =>
        Or.inr (inductionHypothesis none.2)⟩

/-! ## Loops over the elements of a text -/

/-- A text whose elements of the kind must not show: none of them is reported,
and the scan of any text with fewer of them reports the same, as far as
`change` reads the reports. -/
structure Excludes {τ : Type} (elements : τ → List α) (keep : α → Bool)
    (report : τ → α → Option (List β)) (scan : τ → List β) (change : β → γ)
    (kind : α → Prop)
    (text : τ) : Prop where
  unreported : Unreported (report text) kind (elements text)
  removable : ∀ other,
    Inserted kind ((elements other).filter keep) ((elements text).filter keep) →
    (scan other).map change = (scan text).map change

section Texts

variable {τ : Type} {elements : τ → List α} {keep : α → Bool}
  {report : τ → α → Option (List β)} {scan : τ → List β} {change : β → γ}
  {shown : α → Option (List γ)} {passed failed kind : α → Prop}

theorem unreported_of_map {report : α → Option (List β)} {items : List α}
    (unreported : Unreported (fun item =>
      (report item).map (List.map change)) kind items) :
    Unreported report kind items := by
  intro front item back equal marked
  have same := unreported front item back equal marked
  rw [reported_map, reported_map, reported_append] at same
  rw [reported_append]
  split
  · next reached =>
    rw [if_pos reached, List.map_append, List.append_right_eq_self,
      List.map_eq_nil_iff] at same
    rw [same, List.append_nil]
  · rfl

/-- Where every part of a text without elements of the kind is a text, they do not show
exactly when they are skippable. -/
theorem excludes_iff (scans : ∀ text, scan text = reported (report text) (elements text))
    (shows : ∀ text item, (report text item).map (List.map change) = shown item)
    (blank : ∀ item, keep item = false → shown item = some [])
    (passes : ∀ item, shown item = some [] ↔ passed item)
    (fails : ∀ item, shown item = none ↔ failed item) {text : τ}
    (writable : ∀ fewer, Inserted kind fewer ((elements text).filter keep) →
      ∃ other, (elements other).filter keep = fewer) :
    Excludes elements keep report scan change kind text ↔
      Skippable passed failed kind ((elements text).filter keep) := by
  have reads : ∀ text, (scan text).map change =
      reported shown ((elements text).filter keep) := by
    intro text
    rw [scans, reported_filter blank, ← reported_map, funext (shows text)]
  rw [← removable_iff passes fails]
  constructor
  · intro excludes fewer inserted
    obtain ⟨other, rfl⟩ := writable fewer inserted
    have same := excludes.removable other inserted
    rwa [reads, reads] at same
  · intro removable
    refine ⟨?_, ?_⟩
    · apply @unreported_of_map _ _ _ change
      rw [funext (shows text)]
      apply unreported_of_removable
      intro fewer inserted
      rw [← reported_filter blank, ← @reported_filter _ _ _ (elements text) _ blank]
      exact removable _ (inserted.filter keep)
    · intro other inserted
      rw [reads, reads]
      exact removable _ inserted

end Texts

end Library
end PqcScan
