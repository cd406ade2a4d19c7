import Mathlib.Data.Finset.Card
import Mathlib.Tactic.Tauto

/-!
# Insertion-ordered dictionaries

A dictionary is an association list without repeated keys.  Writing a key that
is present replaces its value in place, writing a new key appends it, so the
order of the entries is the order in which their keys first arrived.
-/

namespace PqcScan
namespace Library

/-- Write one key of an association list, in place when it is present. -/
def setEntry [DecidableEq κ] (key : κ) (value : ν) :
    List (κ × ν) → List (κ × ν)
  | [] => [(key, value)]
  | entry :: rest =>
      if entry.1 = key then (key, value) :: rest
      else entry :: setEntry key value rest

/-- Value of a key in an association list. -/
def lookupEntry [DecidableEq κ] (key : κ) : List (κ × ν) → Option ν
  | [] => none
  | entry :: rest => if entry.1 = key then some entry.2 else lookupEntry key rest

theorem mem_keys_setEntry [DecidableEq κ]
    (key other : κ) (value : ν) (entries : List (κ × ν)) :
    other ∈ (setEntry key value entries).map Prod.fst ↔
      other = key ∨ other ∈ entries.map Prod.fst := by
  induction entries with
  | nil => simp [setEntry]
  | cons entry rest inductionHypothesis =>
      by_cases same : entry.1 = key
      · rw [setEntry, if_pos same]
        simp only [List.map_cons, List.mem_cons, same]
        tauto
      · simp only [setEntry, if_neg same, List.map_cons, List.mem_cons,
          inductionHypothesis]
        tauto

theorem nodup_keys_setEntry [DecidableEq κ]
    (key : κ) (value : ν) (entries : List (κ × ν))
    (nodup : (entries.map Prod.fst).Nodup) :
    ((setEntry key value entries).map Prod.fst).Nodup := by
  induction entries with
  | nil => simp [setEntry]
  | cons entry rest inductionHypothesis =>
      rw [List.map_cons, List.nodup_cons] at nodup
      by_cases same : entry.1 = key
      · simpa [setEntry, if_pos same, same] using nodup
      · rw [setEntry, if_neg same, List.map_cons, List.nodup_cons,
          mem_keys_setEntry]
        exact ⟨fun absent => absent.elim same nodup.1,
          inductionHypothesis nodup.2⟩

theorem mem_setEntry [DecidableEq κ]
    {key : κ} {value : ν} {entries : List (κ × ν)} {entry : κ × ν}
    (member : entry ∈ setEntry key value entries) :
    entry = (key, value) ∨ entry ∈ entries := by
  induction entries with
  | nil => simpa [setEntry] using member
  | cons first rest inductionHypothesis =>
      by_cases same : first.1 = key
      · rw [setEntry, if_pos same, List.mem_cons] at member
        exact member.imp_right (List.mem_cons_of_mem _)
      · rw [setEntry, if_neg same, List.mem_cons] at member
        rcases member with equal | member
        · exact Or.inr (equal ▸ List.mem_cons_self)
        · exact (inductionHypothesis member).imp_right
            (List.mem_cons_of_mem _)

/-- The later of two writes to one key stays. -/
theorem setEntry_setEntry [DecidableEq κ]
    (key : κ) (first second : ν) (entries : List (κ × ν)) :
    setEntry key second (setEntry key first entries) = setEntry key second entries := by
  induction entries with
  | nil => simp [setEntry]
  | cons entry rest inductionHypothesis =>
      by_cases same : entry.1 = key
      · simp [setEntry, same]
      · simp [setEntry, same, inductionHypothesis]

theorem lookupEntry_setEntry [DecidableEq κ]
    (key other : κ) (value : ν) (entries : List (κ × ν)) :
    lookupEntry other (setEntry key value entries) =
      if other = key then some value else lookupEntry other entries := by
  induction entries with
  | nil => simp [setEntry, lookupEntry, eq_comm]
  | cons entry rest inductionHypothesis =>
      by_cases same : entry.1 = key
      · by_cases asked : other = key
        · simp [setEntry, lookupEntry, same, asked]
        · simp [setEntry, lookupEntry, same, asked, Ne.symm asked]
      · rw [setEntry, if_neg same, lookupEntry, lookupEntry, inductionHypothesis]
        by_cases first : entry.1 = other
        · have different : other ≠ key := first ▸ same
          rw [if_pos first, if_pos first, if_neg different]
        · rw [if_neg first, if_neg first]

/-- A new key goes to the end. -/
theorem setEntry_of_fresh [DecidableEq κ] {key : κ} (value : ν) {entries : List (κ × ν)}
    (fresh : key ∉ entries.map Prod.fst) :
    setEntry key value entries = entries ++ [(key, value)] := by
  induction entries with
  | nil => rfl
  | cons entry rest inductionHypothesis =>
      rw [List.map_cons, List.mem_cons, not_or] at fresh
      rw [setEntry, if_neg (Ne.symm fresh.1), inductionHypothesis fresh.2,
        List.cons_append]

/-- A key that is present is written in its place. -/
theorem setEntry_append [DecidableEq κ] {key : κ} (old value : ν) {front : List (κ × ν)}
    (fresh : key ∉ front.map Prod.fst) (rest : List (κ × ν)) :
    setEntry key value (front ++ (key, old) :: rest) = front ++ (key, value) :: rest := by
  induction front with
  | nil => exact if_pos rfl
  | cons entry front inductionHypothesis =>
      rw [List.map_cons, List.mem_cons, not_or] at fresh
      rw [List.cons_append, setEntry, if_neg (Ne.symm fresh.1),
        inductionHypothesis fresh.2, List.cons_append]

/-- Appending what is new keeps the first occurrences. -/
theorem foldl_new [DecidableEq κ] (items : List κ) :
    items.foldl (fun out item => if item ∈ out then out else out ++ [item]) [] =
      items.eraseDups := by
  have general : ∀ (items out : List κ),
      items.foldl (fun out item => if item ∈ out then out else out ++ [item]) out =
        out ++ (items.filter fun item => item ∉ out).eraseDups := by
    intro items
    induction items with
    | nil => simp
    | cons item items inductionHypothesis =>
        intro out
        rw [List.foldl_cons, inductionHypothesis]
        by_cases seen : item ∈ out
        · rw [if_pos seen, List.filter_cons_of_neg (by simpa using seen)]
        · have later : (items.filter fun other => other ∉ out ++ [item]) =
              (items.filter fun other => other ∉ out).filter fun other =>
                !other == item := by
            rw [List.filter_filter]
            apply List.filter_congr
            intro other member
            simp [not_or, and_comm, beq_eq_decide]
          rw [if_neg seen, List.filter_cons_of_pos (by simpa using seen),
            List.eraseDups_cons, later, List.append_assoc]
          rfl
  have whole := general items []
  rw [List.nil_append, List.filter_eq_self.mpr (by simp)] at whole
  exact whole

/-- A finite map that remembers the order in which its keys arrived. -/
structure Dict (κ ν : Type) where
  entries : List (κ × ν)
  nodup : (entries.map Prod.fst).Nodup

namespace Dict

variable {κ ν : Type}

@[ext] theorem ext {left right : Dict κ ν}
    (equal : left.entries = right.entries) : left = right := by
  cases left
  cases right
  cases equal
  rfl

instance [DecidableEq κ] [DecidableEq ν] : DecidableEq (Dict κ ν) :=
  fun left right =>
    decidable_of_iff (left.entries = right.entries)
      ⟨Dict.ext, fun equal => by rw [equal]⟩

/-- The dictionary without entries. -/
def empty : Dict κ ν := ⟨[], List.nodup_nil⟩

instance : Inhabited (Dict κ ν) := ⟨empty⟩

/-- The keys, in insertion order. -/
def keys (dict : Dict κ ν) : List κ := dict.entries.map Prod.fst

/-- Number of entries. -/
def length (dict : Dict κ ν) : Nat := dict.entries.length

@[simp] theorem keys_empty : (empty : Dict κ ν).keys = [] := rfl

@[simp] theorem entries_empty : (empty : Dict κ ν).entries = [] := rfl

@[simp] theorem length_keys (dict : Dict κ ν) :
    dict.keys.length = dict.length := by
  simp [keys, length]

/-- The entries whose key is kept. -/
def filterKeys (keep : κ → Bool) (dict : Dict κ ν) : Dict κ ν :=
  ⟨dict.entries.filter fun entry => keep entry.1,
    (List.filter_sublist.map Prod.fst).nodup dict.nodup⟩

/-- Nothing is dropped when every key is kept. -/
theorem filterKeys_of_all {keep : κ → Bool} {dict : Dict κ ν}
    (all : ∀ key ∈ dict.keys, keep key = true) : dict.filterKeys keep = dict := by
  apply ext
  rw [filterKeys, List.filter_eq_self]
  intro entry member
  exact all entry.1 (List.mem_map_of_mem member)

variable [DecidableEq κ]

/-- `dict.get(key)`. -/
def get? (dict : Dict κ ν) (key : κ) : Option ν :=
  lookupEntry key dict.entries

/-- `dict[key] = value`. -/
def set (dict : Dict κ ν) (key : κ) (value : ν) : Dict κ ν :=
  ⟨setEntry key value dict.entries, nodup_keys_setEntry key value _ dict.nodup⟩

/-- The dictionary built by writing a list of pairs from left to right. -/
def ofList (pairs : List (κ × ν)) : Dict κ ν :=
  pairs.foldl (fun dict pair => dict.set pair.1 pair.2) empty

/-- `{**left, **right}`. -/
def merge (left right : Dict κ ν) : Dict κ ν :=
  right.entries.foldl (fun dict pair => dict.set pair.1 pair.2) left

theorem set_set (dict : Dict κ ν) (key : κ) (first second : ν) :
    (dict.set key first).set key second = dict.set key second :=
  Dict.ext (setEntry_setEntry key first second dict.entries)

/-- A lookup after a write. -/
theorem get?_set (dict : Dict κ ν) (key other : κ) (value : ν) :
    (dict.set key value).get? other =
      if other = key then some value else dict.get? other :=
  lookupEntry_setEntry key other value dict.entries

theorem get?_foldl_set (dict : Dict κ ν) (pairs : List (κ × ν)) (key : κ) :
    (pairs.foldl (fun dict pair => dict.set pair.1 pair.2) dict).get? key =
      (((pairs.filter fun pair => pair.1 = key).getLast?).map Prod.snd).or
        (dict.get? key) := by
  induction pairs generalizing dict with
  | nil => simp
  | cons pair rest inductionHypothesis =>
      rw [List.foldl_cons, inductionHypothesis, get?_set]
      by_cases same : pair.1 = key
      · rw [List.filter_cons_of_pos (by simpa using same), List.getLast?_cons]
        cases (rest.filter fun pair => pair.1 = key).getLast? with
        | none => simp [same]
        | some last => simp
      · rw [List.filter_cons_of_neg (by simpa using same), if_neg (Ne.symm same)]

/-- The last pair of a key gives its value. -/
theorem get?_ofList (pairs : List (κ × ν)) (key : κ) :
    (ofList pairs).get? key =
      ((pairs.filter fun pair => pair.1 = key).getLast?).map Prod.snd := by
  rw [ofList, get?_foldl_set]
  simp [get?, lookupEntry]

/-- Among distinct keys every pair counts. -/
theorem get?_ofList_of_mem {pairs : List (κ × ν)} (distinct : (pairs.map Prod.fst).Nodup)
    {pair : κ × ν} (member : pair ∈ pairs) :
    (ofList pairs).get? pair.1 = some pair.2 := by
  have single : (pairs.filter fun other => other.1 = pair.1) = [pair] := by
    obtain ⟨before, after, rfl⟩ := List.append_of_mem member
    rw [List.map_append, List.map_cons, List.nodup_middle, List.nodup_cons,
      List.mem_append, not_or] at distinct
    have absent : ∀ others : List (κ × ν), pair.1 ∉ others.map Prod.fst →
        (others.filter fun other => other.1 = pair.1) = [] := by
      intro others missing
      rw [List.filter_eq_nil_iff]
      intro other otherMember same
      exact missing (List.mem_map.mpr ⟨other, otherMember, by simpa using same⟩)
    rw [List.filter_append, List.filter_cons_of_pos (by simp),
      absent before distinct.1.1, absent after distinct.1.2]
    rfl
  rw [get?_ofList, single]
  rfl

theorem mem_keys_set (dict : Dict κ ν) (key other : κ) (value : ν) :
    other ∈ (dict.set key value).keys ↔ other = key ∨ other ∈ dict.keys :=
  mem_keys_setEntry key other value dict.entries

theorem mem_keys_foldl_set
    (dict : Dict κ ν) (pairs : List (κ × ν)) (other : κ) :
    other ∈ (pairs.foldl (fun dict pair => dict.set pair.1 pair.2) dict).keys ↔
      other ∈ dict.keys ∨ other ∈ pairs.map Prod.fst := by
  induction pairs generalizing dict with
  | nil => simp
  | cons pair rest inductionHypothesis =>
      rw [List.foldl_cons, inductionHypothesis, mem_keys_set, List.map_cons,
        List.mem_cons]
      tauto

/-- Merging unites the key sets. -/
theorem mem_keys_merge (left right : Dict κ ν) (other : κ) :
    other ∈ (left.merge right).keys ↔
      other ∈ left.keys ∨ other ∈ right.keys :=
  mem_keys_foldl_set left right.entries other

theorem mem_keys_ofList (pairs : List (κ × ν)) (other : κ) :
    other ∈ (ofList pairs).keys ↔ other ∈ pairs.map Prod.fst := by
  rw [ofList, mem_keys_foldl_set]
  simp

theorem mem_entries_foldl_set
    {dict : Dict κ ν} {pairs : List (κ × ν)} {entry : κ × ν}
    (member : entry ∈
      (pairs.foldl (fun dict pair => dict.set pair.1 pair.2) dict).entries) :
    entry ∈ dict.entries ∨ entry ∈ pairs := by
  induction pairs generalizing dict with
  | nil => exact Or.inl member
  | cons pair rest inductionHypothesis =>
      rcases inductionHypothesis member with written | later
      · rcases mem_setEntry written with equal | earlier
        · exact Or.inr (equal ▸ List.mem_cons_self)
        · exact Or.inl earlier
      · exact Or.inr (List.mem_cons_of_mem _ later)

/-- A merged entry comes from one of the two sides. -/
theorem mem_entries_merge
    {left right : Dict κ ν} {entry : κ × ν}
    (member : entry ∈ (left.merge right).entries) :
    entry ∈ left.entries ∨ entry ∈ right.entries :=
  mem_entries_foldl_set member

theorem mem_entries_ofList
    {pairs : List (κ × ν)} {entry : κ × ν}
    (member : entry ∈ (ofList pairs).entries) : entry ∈ pairs := by
  rcases mem_entries_foldl_set member with absent | present
  · simp at absent
  · exact present

theorem entries_foldl_set {dict : Dict κ ν} {pairs : List (κ × ν)}
    (distinct : (dict.keys ++ pairs.map Prod.fst).Nodup) :
    (pairs.foldl (fun dict pair => dict.set pair.1 pair.2) dict).entries =
      dict.entries ++ pairs := by
  induction pairs generalizing dict with
  | nil => simp
  | cons pair rest inductionHypothesis =>
      rw [List.map_cons] at distinct
      have fresh : pair.1 ∉ dict.entries.map Prod.fst := by
        intro known
        exact (List.nodup_append.mp distinct).2.2 _ known _ List.mem_cons_self rfl
      have written : (dict.set pair.1 pair.2).entries = dict.entries ++ [pair] :=
        setEntry_of_fresh pair.2 fresh
      rw [List.foldl_cons, inductionHypothesis, written, List.append_assoc,
        List.singleton_append]
      rw [keys, written, List.map_append, List.append_assoc]
      exact distinct

theorem keys_set (dict : Dict κ ν) (key : κ) (value : ν) :
    (dict.set key value).keys =
      if key ∈ dict.keys then dict.keys else dict.keys ++ [key] := by
  have general : ∀ entries : List (κ × ν),
      (setEntry key value entries).map Prod.fst =
        if key ∈ entries.map Prod.fst then entries.map Prod.fst
        else entries.map Prod.fst ++ [key] := by
    intro entries
    induction entries with
    | nil => rfl
    | cons entry rest inductionHypothesis =>
        by_cases same : entry.1 = key
        · have present : key ∈ (entry :: rest).map Prod.fst := by
            rw [List.map_cons, same]
            exact List.mem_cons_self
          rw [setEntry, if_pos same, if_pos present, List.map_cons, List.map_cons, same]
        · rw [setEntry, if_neg same, List.map_cons, List.map_cons, inductionHypothesis]
          simp only [List.mem_cons, Ne.symm same, false_or]
          split
          · rfl
          · rfl
  exact general dict.entries

/-- The keys of a dictionary built from pairs are the first occurrences. -/
theorem keys_ofList (pairs : List (κ × ν)) :
    (ofList pairs).keys = (pairs.map Prod.fst).eraseDups := by
  have general : ∀ dict : Dict κ ν,
      (pairs.foldl (fun dict pair => dict.set pair.1 pair.2) dict).keys =
        (pairs.map Prod.fst).foldl
          (fun out key => if key ∈ out then out else out ++ [key]) dict.keys := by
    induction pairs with
    | nil => exact fun dict => rfl
    | cons pair rest inductionHypothesis =>
        intro dict
        rw [List.foldl_cons, inductionHypothesis, keys_set, List.map_cons,
          List.foldl_cons]
  rw [ofList, general, keys_empty, foldl_new]

/-- Writing the entries of a dictionary one by one gives the dictionary. -/
theorem ofList_entries (dict : Dict κ ν) : ofList dict.entries = dict := by
  apply ext
  rw [ofList, entries_foldl_set]
  · simp
  · simpa using dict.nodup

/-- Writing the same keys again replaces every value. -/
theorem foldl_setEntry {front old new : List (κ × ν)}
    (same : old.map Prod.fst = new.map Prod.fst)
    (distinct : ((front ++ new).map Prod.fst).Nodup) :
    new.foldl (fun entries pair => setEntry pair.1 pair.2 entries) (front ++ old) =
      front ++ new := by
  induction new generalizing front old with
  | nil => rw [List.map_eq_nil_iff.mp same]; rfl
  | cons pair new inductionHypothesis =>
      cases old with
      | nil => cases same
      | cons entry old =>
          obtain ⟨key, value⟩ := entry
          obtain ⟨sameKey, sameRest⟩ := List.cons.inj same
          dsimp only at sameKey
          subst sameKey
          have fresh : pair.1 ∉ front.map Prod.fst := by
            rw [List.map_append, List.map_cons] at distinct
            exact fun member =>
              (List.nodup_append.mp distinct).2.2 _ member _ List.mem_cons_self rfl
          have next := @inductionHypothesis (front ++ [pair]) old sameRest
            (by rwa [List.append_assoc, List.singleton_append])
          rw [List.append_assoc, List.append_assoc] at next
          rw [List.foldl_cons, setEntry_append value pair.2 fresh]
          exact next

theorem entries_foldl_set_eq (dict : Dict κ ν) (pairs : List (κ × ν)) :
    (pairs.foldl (fun dict pair => dict.set pair.1 pair.2) dict).entries =
      pairs.foldl (fun entries pair => setEntry pair.1 pair.2 entries) dict.entries := by
  induction pairs generalizing dict with
  | nil => rfl
  | cons pair rest inductionHypothesis => exact inductionHypothesis _

/-- Merging changes nothing when the keys of the left side come first on the right. -/
theorem merge_eq_right {left right : Dict κ ν} (first : left.keys <+: right.keys) :
    left.merge right = right := by
  have split : (right.entries.take left.length).map Prod.fst = left.keys := by
    have taken := List.prefix_iff_eq_take.mp first
    rw [length_keys] at taken
    rw [List.map_take]
    exact taken.symm
  have replaced : ((right.entries.take left.length).foldl
      (fun dict pair => dict.set pair.1 pair.2) left).entries =
        right.entries.take left.length := by
    rw [entries_foldl_set_eq]
    apply @foldl_setEntry _ _ _ [] left.entries _ split.symm
    rw [List.nil_append, split]
    exact left.nodup
  apply ext
  rw [merge, ← List.take_append_drop left.length right.entries, List.foldl_append,
    entries_foldl_set, replaced]
  rw [keys, replaced, ← List.map_append, List.take_append_drop]
  exact right.nodup

/-- The keys of the left side come first. -/
theorem keys_prefix_merge (left right : Dict κ ν) :
    left.keys <+: (left.merge right).keys := by
  have general : ∀ (pairs : List (κ × ν)) (dict : Dict κ ν), left.keys <+: dict.keys →
      left.keys <+: (pairs.foldl
        (fun dict pair => dict.set pair.1 pair.2) dict).keys := by
    intro pairs
    induction pairs with
    | nil => exact fun dict first => first
    | cons pair rest inductionHypothesis =>
        intro dict first
        apply inductionHypothesis
        rw [keys_set]
        split
        · exact first
        · exact first.trans (List.prefix_append _ _)
  exact general right.entries left (List.prefix_refl _)

/-- The right side of a merge prevails. -/
theorem get?_merge_of_get? {left right : Dict κ ν} {key : κ} {value : ν}
    (found : right.get? key = some value) : (left.merge right).get? key = some value := by
  rw [← ofList_entries right, get?_ofList] at found
  rw [merge, get?_foldl_set, found]
  rfl

/-- The number of entries is the number of distinct keys. -/
theorem length_eq_card_keys (dict : Dict κ ν) :
    dict.length = dict.keys.toFinset.card := by
  rw [List.toFinset_card_of_nodup (l := dict.keys) dict.nodup, length_keys]

end Dict

end Library
end PqcScan
