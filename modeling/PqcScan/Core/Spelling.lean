import PqcScan.Core.Pyast

/-!
# Import spellings

The analyser goes by the symbols that names resolve to, whatever the imports call them,
apart from three places where it looks at the name itself.
-/

namespace PqcScan
namespace Core
namespace Pyast

open Library Python

/-! ## Trees -/

theorem Node.induct {holds : Node → Prop}
    (step : ∀ node, (∀ child ∈ node.children, holds child) → holds node) (node : Node) :
    holds node := by
  have one : ∀ child, holds child → ∀ other ∈ [child], holds other := by
    intro child held other member
    exact List.mem_singleton.mp member ▸ held
  have nothing : ∀ other ∈ ([] : List Node), holds other := by
    intro other member
    cases member
  refine @Node.rec holds (fun list => ∀ child ∈ list, holds child)
    (fun lineno id => step _ nothing)
    (fun lineno value attr held => step _ (one value held))
    (fun lineno func args keywords held heldArgs heldKeywords => step _ ?_)
    (fun arg value held => step _ (one value held))
    (fun value => step _ nothing) (fun value => step _ nothing)
    (fun names => step _ nothing) (fun module names => step _ nothing)
    (fun children held => step _ held) nothing
    (fun head tail held later => ?_) node
  · intro child member
    rcases List.mem_cons.mp member with rfl | inside
    · exact held
    · exact (List.mem_append.mp inside).elim (heldArgs child) (heldKeywords child)
  · intro child member
    rcases List.mem_cons.mp member with rfl | inside
    · exact held
    · exact later child inside

theorem nodesOf_eq (list : List Node) : nodesOf list = list.flatMap Node.nodes := by
  induction list with
  | nil => rfl
  | cons node rest inductionHypothesis =>
      rw [nodesOf, inductionHypothesis, List.flatMap_cons]

theorem nodes_eq (node : Node) :
    node.nodes = node :: node.children.flatMap Node.nodes := by
  cases node <;> simp [Node.nodes, Node.children, nodesOf_eq]

theorem walk_perm (tree : Node) : (walk tree).Perm tree.nodes := by
  have perm := breadthFirst_perm nodes_eq
    (show (List.flatMap Node.nodes [tree]).length ≤ tree.nodes.length by simp)
  rwa [List.flatMap_singleton] at perm

/-! ## Dotted names -/

/-- The parts of a symbol, the last first. -/
def partsOf (symbol : List Char) : List (List Char) := (symbol.splitOn '.').reverse

/-- The dotted name of a path, its last part first. -/
def dotted : List (List Char) → List Char
  | [] => []
  | [first] => first
  | last :: next :: rest => dotted (next :: rest) ++ '.' :: last

theorem free_of_mem_splitOn {text part : List Char} (member : part ∈ text.splitOn '.') :
    '.' ∉ part := by
  induction text generalizing part with
  | nil =>
      rw [List.splitOn_nil, List.mem_singleton] at member
      rw [member]
      exact List.not_mem_nil
  | cons char text inductionHypothesis =>
      rw [List.splitOn_cons_eq_if_modifyHead] at member
      split at member
      · rcases List.mem_cons.mp member with rfl | later
        · exact List.not_mem_nil
        · exact inductionHypothesis later
      · rename_i other
        obtain ⟨first, rest, parts⟩ :=
          List.exists_cons_of_ne_nil (List.splitOn_ne_nil '.' text)
        rw [parts] at member inductionHypothesis
        rcases List.mem_cons.mp member with rfl | later
        · rw [List.mem_cons]
          rintro (rfl | inside)
          · exact other (beq_self_eq_true _)
          · exact inductionHypothesis List.mem_cons_self inside
        · exact inductionHypothesis (List.mem_cons_of_mem _ later)

theorem partsOf_ne_nil (symbol : List Char) : partsOf symbol ≠ [] := by
  simp [partsOf]

theorem partsOf_append (symbol attr : List Char) :
    partsOf (symbol ++ '.' :: attr) = partsOf attr ++ partsOf symbol := by
  rw [partsOf, List.splitOn_append_cons_self, List.reverse_append]
  rfl

theorem partsOf_dotted {parts : List (List Char)} (some_ : parts ≠ [])
    (free : ∀ part ∈ parts, '.' ∉ part) : partsOf (dotted parts) = parts := by
  induction parts with
  | nil => exact absurd rfl some_
  | cons last rest inductionHypothesis =>
      rw [List.forall_mem_cons] at free
      have alone : partsOf last = [last] := by
        rw [partsOf, List.splitOn_eq_singleton free.1]
        rfl
      cases rest with
      | nil => exact alone
      | cons next rest =>
          rw [dotted, partsOf_append, alone,
            inductionHypothesis (List.cons_ne_nil _ _) free.2]
          rfl

theorem dotted_append {front : List (List Char)} {first : List Char}
    (some_ : front ≠ []) :
    dotted (front ++ [first]) = first ++ '.' :: dotted front := by
  induction front with
  | nil => exact absurd rfl some_
  | cons last rest inductionHypothesis =>
      cases rest with
      | nil => rfl
      | cons next rest =>
          rw [List.cons_append, List.cons_append, dotted, ← List.cons_append,
            inductionHypothesis (List.cons_ne_nil _ _), dotted, List.append_assoc,
            List.cons_append]

theorem dotted_partsOf (symbol : List Char) : dotted (partsOf symbol) = symbol := by
  have joined : ∀ parts : List (List Char),
      dotted parts.reverse = ['.'].intercalate parts := by
    intro parts
    induction parts with
    | nil => rfl
    | cons first rest inductionHypothesis =>
        cases rest with
        | nil => simp [dotted]
        | cons next rest =>
            rw [List.reverse_cons, dotted_append (by simp), inductionHypothesis,
              List.intercalate_cons_cons]
            simp
  rw [partsOf, joined, List.intercalate_splitOn]

/-! ## Names in full -/

/-- A symbol as a reference, from its parts. -/
def chain (lineno : Nat) : List (List Char) → Node
  | [] => .name lineno []
  | [first] => .name lineno first
  | last :: next :: rest => .attribute lineno (chain lineno (next :: rest)) last

/-- The node is an import. -/
def Node.isImport : Node → Bool
  | .import_ _ | .importFrom .. => true
  | _ => false

/-- The symbol of a name. -/
def symbolOf (symbols : Symbols) (id : List Char) : List Char := (symbols.get? id).getD id

mutual

/-- The module without imports: every name is spelled in full. -/
def expand (symbols : Symbols) : Node → Node
  | .name lineno id => chain lineno (partsOf (symbolOf symbols id))
  | .attribute lineno value attr => .attribute lineno (expand symbols value) attr
  | .call lineno func args keywords =>
      .call lineno (expand symbols func) (expandAll symbols args)
        (expandAll symbols keywords)
  | .keyword arg value => .keyword arg (expand symbols value)
  | .constStr value => .constStr value
  | .constInt value => .constInt value
  | .import_ _ | .importFrom .. => .other []
  | .other children => .other (expandBody symbols children)

/-- The trees of a list, spelled out. -/
def expandAll (symbols : Symbols) : List Node → List Node
  | [] => []
  | node :: rest => expand symbols node :: expandAll symbols rest

/-- The statements of a body, spelled out and without the imports. -/
def expandBody (symbols : Symbols) : List Node → List Node
  | [] => []
  | node :: rest =>
      if node.isImport then expandBody symbols rest
      else expand symbols node :: expandBody symbols rest

end

theorem expandAll_eq (symbols : Symbols) (list : List Node) :
    expandAll symbols list = list.map (expand symbols) := by
  induction list with
  | nil => rfl
  | cons node rest inductionHypothesis =>
      rw [expandAll, inductionHypothesis, List.map_cons]

theorem expandBody_eq (symbols : Symbols) (list : List Node) :
    expandBody symbols list =
      (list.filter fun node => !node.isImport).map (expand symbols) := by
  induction list with
  | nil => rfl
  | cons node rest inductionHypothesis =>
      rw [expandBody, inductionHypothesis, List.filter_cons]
      cases node.isImport <;> simp

theorem resolve_chain (lineno : Nat) (parts : List (List Char)) :
    resolve .empty (chain lineno parts) = some (dotted parts) := by
  induction parts with
  | nil => rfl
  | cons last rest inductionHypothesis =>
      cases rest with
      | nil => rfl
      | cons next rest =>
          rw [chain, resolve, inductionHypothesis]
          rfl

/-- A reference in full resolves without imports to what it resolved to with them. -/
theorem resolve_expand (symbols : Symbols) (node : Node) :
    resolve .empty (expand symbols node) = resolve symbols node := by
  induction node using Node.induct with
  | step node inductionHypothesis =>
      cases node with
      | name lineno id =>
          rw [expand, resolve_chain, dotted_partsOf]
          rfl
      | «attribute» lineno value attr =>
          rw [expand, resolve, resolve, inductionHypothesis value List.mem_cons_self]
      | _ => simp [expand, resolve]

/-! ## What is missed -/

/-- The protocol constants in a symbol that is spelled as one name. -/
def protocolsIn (lineno : Nat) : List (List Char) → List AstHit
  | [] | [_] => []
  | attr :: obj :: rest =>
      (if obj = "ssl".toList then
          ((weakTlsProtocols.lookup attr).map (protocolHit lineno attr)).toList
        else []) ++
        protocolsIn lineno (obj :: rest)

/-- The end of the symbol of a reference. -/
def fullName (symbols : Symbols) : Node → Option (List Char)
  | .attribute _ _ attr => some attr
  | .name _ id => (partsOf (symbolOf symbols id)).head?
  | _ => none

/-- `_ec_curve` of a module that is spelled out. -/
def fullCurve (symbols : Symbols) : List Node → Option (List Char)
  | [] => none
  | .call _ func _ _ :: _ => fullName symbols func
  | arg :: _ => fullName symbols arg

/-- The mode is CBC, also where it is a name. -/
def fullModeCbc (symbols : Symbols) : Node → Bool
  | .attribute _ _ attr => attr == "MODE_CBC".toList
  | .name _ id =>
      (partsOf (symbolOf symbols id)).head? == some "MODE_CBC".toList &&
        decide (1 < (partsOf (symbolOf symbols id)).length)
  | _ => false

/-- `_has_mode_cbc` of a module that is spelled out. -/
def hasFullModeCbc (symbols : Symbols) (args keywords : List Node) : Bool :=
  (args ++ keywords.map Node.keywordValue).any (fullModeCbc symbols)

/-- The function is an attribute of an object, by its symbol. -/
def Calls (symbols : Symbols) (func : Node) (obj last : String) : Prop :=
  ∃ canon, resolve symbols func = some canon ∧
    (partsOf canon).tail.headD [] = obj.toList ∧
    (partsOf canon).headD [] = last.toList

theorem not_calls {symbols : Symbols} {func : Node} {obj last : String}
    (resolved : resolve symbols func = none) : ¬ Calls symbols func obj last := by
  rintro ⟨canon, same, -⟩
  rw [resolved] at same
  cases same

theorem calls_iff {symbols : Symbols} {func : Node} {obj last : String}
    {canon : List Char}
    (resolved : resolve symbols func = some canon) :
    ((partsOf canon).tail.headD [] = obj.toList ∧
      (partsOf canon).headD [] = last.toList) ↔
      Calls symbols func obj last := by
  rw [Calls, resolved]
  simp

instance (symbols : Symbols) (func : Node) (obj last : String) :
    Decidable (Calls symbols func obj last) :=
  match resolved : resolve symbols func with
  | none => isFalse (not_calls resolved)
  | some _ => decidable_of_iff _ (calls_iff resolved)

/-- The hit of a CBC mode. -/
def cbcHit (lineno : Nat) : AstHit :=
  ⟨lineno, "AES-CBC".toList, .aesCbc, "AES-CBC mode (prefer AES-GCM)".toList⟩

/-- What the analyser reports at a node once the names are spelled in full, and not
before: a protocol constant that is one name, and a cipher whose mode is one name. -/
def missed (symbols : Symbols) : Node → List AstHit
  | .name lineno id => protocolsIn lineno (partsOf (symbolOf symbols id))
  | .call lineno func args keywords =>
      if Calls symbols func "AES" "new" ∧ hasModeCbc args keywords = false ∧
          hasFullModeCbc symbols args keywords = true then
        [cbcHit lineno]
      else []
  | _ => []

/-- The curve of a key goes by its own name. -/
def KeepsCurve (symbols : Symbols) : Node → Prop
  | .call _ func args _ =>
      Calls symbols func "ec" "generate_private_key" →
        ecCurve args = fullCurve symbols args
  | _ => True

/-! ## One node -/

theorem ownName_chain (lineno : Nat) {parts : List (List Char)} (some_ : parts ≠ []) :
    (chain lineno parts).ownName = parts.head? := by
  cases parts with
  | nil => exact absurd rfl some_
  | cons last rest => cases rest <;> rfl

theorem ownName_expand (symbols : Symbols) (node : Node) :
    (expand symbols node).ownName = fullName symbols node := by
  cases node with
  | name lineno id =>
      rw [expand, ownName_chain lineno (partsOf_ne_nil _)]
      rfl
  | _ => simp [expand, Node.ownName, fullName]

theorem isModeCbc_expand (symbols : Symbols) (node : Node) :
    (expand symbols node).isModeCbc = fullModeCbc symbols node := by
  cases node with
  | name lineno id =>
      rw [expand, fullModeCbc]
      cases partsOf (symbolOf symbols id) with
      | nil => rfl
      | cons last rest => cases rest <;> simp [chain, Node.isModeCbc]
  | _ => simp [expand, Node.isModeCbc, fullModeCbc]

/-- A name in full is a name or an attribute. -/
theorem chain_cases (lineno : Nat) (parts : List (List Char)) :
    (∃ id, chain lineno parts = .name lineno id) ∨
      ∃ value attr, chain lineno parts = .attribute lineno value attr := by
  cases parts with
  | nil => exact Or.inl ⟨_, rfl⟩
  | cons last rest =>
      cases rest with
      | nil => exact Or.inl ⟨_, rfl⟩
      | cons next rest => exact Or.inr ⟨_, _, rfl⟩

theorem keywordValue_expand (symbols : Symbols) (node : Node) :
    (expand symbols node).keywordValue = expand symbols node.keywordValue := by
  cases node with
  | name lineno id =>
      have own : (Node.name lineno id).keywordValue = .name lineno id := rfl
      rw [own, expand]
      rcases chain_cases lineno (partsOf (symbolOf symbols id)) with ⟨_, same⟩ | ⟨_,
        _, same⟩ <;>
        rw [same] <;> rfl
  | _ => simp [expand, Node.keywordValue]

theorem constStr_expand (symbols : Symbols) (node : Node) :
    constStr (expand symbols node) = constStr node := by
  cases node with
  | name lineno id =>
      rw [expand]
      rcases chain_cases lineno (partsOf (symbolOf symbols id)) with ⟨_, same⟩ | ⟨_,
        _, same⟩ <;>
        rw [same] <;> rfl
  | _ => simp [expand, constStr]

theorem constInt_expand (symbols : Symbols) (node : Node) :
    constInt (expand symbols node) = constInt node := by
  cases node with
  | name lineno id =>
      rw [expand]
      rcases chain_cases lineno (partsOf (symbolOf symbols id)) with ⟨_, same⟩ | ⟨_,
        _, same⟩ <;>
        rw [same] <;> rfl
  | _ => simp [expand, constInt]

/-- What a call reads from its arguments once they are in full. -/
def fullReads (symbols : Symbols) (args keywords : List Node) : Reads :=
  { readsOf args keywords with
    curve := fullCurve symbols args
    modeCbc := hasFullModeCbc symbols args keywords }

theorem head?_bind_expandAll {α : Type} (symbols : Symbols) (args : List Node)
    {read : Node → Option α} (kept : ∀ node, read (expand symbols node) = read node) :
    (expandAll symbols args).head?.bind read = args.head?.bind read := by
  cases args with
  | nil => rfl
  | cons arg rest => exact kept arg

theorem keywordInt_expandAll (symbols : Symbols) (name : List Char)
    (keywords : List Node) :
    keywordInt name (expandAll symbols keywords) = keywordInt name keywords := by
  rw [keywordInt, keywordInt, expandAll_eq, List.foldl_map]
  congr 1
  funext bits keyword
  cases keyword with
  | name lineno id =>
      rw [expand]
      rcases chain_cases lineno (partsOf (symbolOf symbols id)) with ⟨_, same⟩ | ⟨_,
        _, same⟩ <;>
        rw [same]
  | keyword arg value => simp only [expand, constInt_expand]
  | _ => simp only [expand]

theorem ecCurve_expandAll (symbols : Symbols) (args : List Node) :
    ecCurve (expandAll symbols args) = fullCurve symbols args := by
  cases args with
  | nil => rfl
  | cons arg rest =>
      cases arg with
      | name lineno id =>
          have named := ownName_expand symbols (.name lineno id)
          rw [expandAll]
          rw [expand] at named ⊢
          rcases chain_cases lineno (partsOf (symbolOf symbols id)) with ⟨_, same⟩ | ⟨_,
            _, same⟩ <;>
            rw [same] at named ⊢ <;> exact named
      | call lineno func args keywords =>
          rw [expandAll, expand]
          exact ownName_expand symbols func
      | _ => simp [expandAll, expand, ecCurve, fullCurve, Node.ownName, fullName]

theorem hasModeCbc_expandAll (symbols : Symbols) (args keywords : List Node) :
    hasModeCbc (expandAll symbols args) (expandAll symbols keywords) =
      hasFullModeCbc symbols args keywords := by
  rw [hasModeCbc, hasFullModeCbc, expandAll_eq, expandAll_eq, List.map_map,
    List.any_append, List.any_append, List.any_map, List.any_map, List.any_map]
  congr 2
  · funext node
    exact isModeCbc_expand symbols node
  · funext node
    simp only [Function.comp_apply, keywordValue_expand, isModeCbc_expand]

theorem readsOf_expandAll (symbols : Symbols) (args keywords : List Node) :
    readsOf (expandAll symbols args) (expandAll symbols keywords) =
      fullReads symbols args keywords := by
  simp only [readsOf, fullReads,
    head?_bind_expandAll symbols args (constStr_expand symbols),
    head?_bind_expandAll symbols args (constInt_expand symbols), keywordInt_expandAll,
    ecCurve_expandAll, hasModeCbc_expandAll]

/-- The curve matters for curves only. -/
theorem callHits_curve (lineno : Nat) (canon : List Char) (reads : Reads)
    {curve : Option (List Char)}
    (kept : (partsOf canon).tail.headD [] = "ec".toList →
      (partsOf canon).headD [] = "generate_private_key".toList → curve = reads.curve) :
    callHits lineno canon
      { reads with curve := curve } = callHits lineno canon reads := by
  by_cases ec : (partsOf canon).tail.headD [] = "ec".toList ∧
      (partsOf canon).headD [] = "generate_private_key".toList
  · rw [kept ec.1 ec.2]
  · rw [partsOf] at ec
    simp only [callHits, if_neg ec]

theorem callHits_aes (lineno : Nat) {canon : List Char} (reads : Reads)
    (obj : (partsOf canon).tail.headD [] = "AES".toList)
    (last : (partsOf canon).headD [] = "new".toList) :
    callHits lineno canon reads = if reads.modeCbc then [cbcHit lineno] else [] := by
  have apart : ∀ other : String, (partsOf other.toList).tail.headD [] ≠ "AES".toList →
      canon ≠ other.toList := by
    rintro other ne rfl
    exact ne obj
  have md5 := apart "hashlib.md5" (by decide)
  have sha1 := apart "hashlib.sha1" (by decide)
  have new := apart "hashlib.new" (by decide)
  rw [partsOf] at obj last
  simp +decide only [callHits, obj, last, md5, sha1, new, if_false, false_or, and_false,
    if_true, and_true]
  rfl

/-- The mode matters for `AES.new` only. -/
theorem callHits_modeCbc (lineno : Nat) (canon : List Char) (reads : Reads) {mode : Bool}
    (grows : reads.modeCbc = true → mode = true) :
    callHits lineno canon { reads with modeCbc := mode } =
      callHits lineno canon reads ++
        if ((partsOf canon).tail.headD [] = "AES".toList ∧
            (partsOf canon).headD [] = "new".toList) ∧ reads.modeCbc = false ∧
              mode = true then
          [cbcHit lineno]
        else [] := by
  by_cases aes : (partsOf canon).tail.headD [] = "AES".toList ∧
      (partsOf canon).headD [] = "new".toList
  · rw [callHits_aes lineno _ aes.1 aes.2, callHits_aes lineno reads aes.1 aes.2]
    cases before : reads.modeCbc with
    | true => simp [grows before]
    | false => simp only [aes, Bool.false_eq_true, if_false, true_and, and_self,
        List.nil_append]
  · rw [if_neg (fun both => aes both.1), List.append_nil]
    rw [partsOf] at aes
    simp only [callHits, if_neg (mt And.symm aes)]

theorem visitAttribute_expand (symbols : Symbols) (lineno : Nat) (value : Node)
    (attr : List Char) :
    visitAttribute .empty lineno (expand symbols value) attr =
      visitAttribute symbols lineno value attr := by
  simp only [visitAttribute, resolve, resolve_expand]

/-- What a call yields once names are in full. -/
theorem visitCall_expand {symbols : Symbols} {lineno : Nat} {func : Node}
    {args keywords : List Node}
    (keeps : KeepsCurve symbols (.call lineno func args keywords))
    (grows : hasModeCbc args keywords = true →
      hasFullModeCbc symbols args keywords = true) :
    visitCall .empty lineno (expand symbols func) (expandAll symbols args)
        (expandAll symbols keywords) =
      visitCall symbols lineno func args keywords ++
        missed symbols (.call lineno func args keywords) := by
  rw [visitCall, visitCall, resolve_expand, missed]
  cases resolved : resolve symbols func with
  | none => exact (if_neg fun aes => not_calls resolved aes.1).symm
  | some canon =>
      have curve : callHits lineno canon (fullReads symbols args keywords) =
          callHits lineno canon { readsOf args keywords with
            modeCbc := hasFullModeCbc symbols args keywords } :=
        callHits_curve lineno canon
          { readsOf args keywords with modeCbc := hasFullModeCbc symbols args keywords }
          fun obj last => (keeps ((calls_iff resolved).mp ⟨obj, last⟩)).symm
      dsimp only
      rw [readsOf_expandAll, curve,
        callHits_modeCbc lineno canon (readsOf args keywords) grows]
      exact congrArg (_ ++ ·) (if_congr (and_congr (calls_iff resolved) Iff.rfl) rfl rfl)

theorem hasFullModeCbc_of_hasModeCbc {symbols : Symbols} {args keywords : List Node}
    (own : hasModeCbc args keywords = true) :
    hasFullModeCbc symbols args keywords = true := by
  obtain ⟨node, member, mode⟩ := List.any_eq_true.mp own
  refine List.any_eq_true.mpr ⟨node, member, ?_⟩
  cases node with
  | «attribute» lineno value attr => exact mode
  | _ => cases mode

theorem protocolsIn_chain (lineno : Nat) {parts : List (List Char)}
    (free : ∀ part ∈ parts, '.' ∉ part) :
    (chain lineno parts).nodes.flatMap (visit .empty) = protocolsIn lineno parts := by
  induction parts with
  | nil => rfl
  | cons attr rest inductionHypothesis =>
      cases rest with
      | nil => rfl
      | cons obj rest =>
          have apart : partsOf (dotted (attr :: obj :: rest)) = attr :: obj :: rest :=
            partsOf_dotted (List.cons_ne_nil _ _) free
          rw [List.forall_mem_cons] at free
          rw [chain, Node.nodes, List.flatMap_cons, inductionHypothesis free.2,
            protocolsIn]
          congr 1
          have whole := resolve_chain lineno (attr :: obj :: rest)
          rw [chain] at whole
          rw [visit, visitAttribute, whole]
          rw [partsOf] at apart
          cases weakTlsProtocols.lookup attr with
          | none => simp
          | some algo => simp [apart]

/-- What a node yields once the names below are in full. -/
def seen (symbols : Symbols) (node : Node) : List AstHit :=
  visit symbols node ++ missed symbols node

theorem visit_import {symbols : Symbols} {node : Node} (import_ : node.isImport = true) :
    node.nodes.flatMap (seen symbols) = [] := by
  cases node with
  | import_ names => rfl
  | importFrom module names => rfl
  | _ => cases import_

theorem flatMap_body (symbols : Symbols) (list : List Node) :
    (list.filter fun child => !child.isImport).flatMap
        (fun child => child.nodes.flatMap (seen symbols)) =
      list.flatMap fun child => child.nodes.flatMap (seen symbols) := by
  induction list with
  | nil => rfl
  | cons child rest inductionHypothesis =>
      rw [List.filter_cons, List.flatMap_cons, ← inductionHypothesis]
      cases kind : child.isImport with
      | true => simp [visit_import kind]
      | false => simp

theorem flatMap_expand {symbols : Symbols} (node : Node)
    (keeps : ∀ inner ∈ node.nodes, KeepsCurve symbols inner) :
    (expand symbols node).nodes.flatMap (visit .empty) = node.nodes.flatMap
      (seen symbols) := by
  induction node using Node.induct with
  | step node inductionHypothesis =>
      rw [nodes_eq] at keeps
      rw [List.forall_mem_cons] at keeps
      obtain ⟨here, below⟩ := keeps
      have children : ∀ child ∈ node.children,
          (expand symbols child).nodes.flatMap (visit .empty) =
            child.nodes.flatMap (seen symbols) := by
        intro child member
        exact inductionHypothesis child member fun inner inside =>
          below inner (List.mem_flatMap.mpr ⟨child, member, inside⟩)
      have lists : ∀ list : List Node, (∀ child ∈ list, child ∈ node.children) →
          ((list.map (expand symbols)).flatMap Node.nodes).flatMap (visit .empty) =
            (list.flatMap Node.nodes).flatMap (seen symbols) := by
        intro list inside
        rw [List.flatMap_assoc, List.flatMap_assoc, List.flatMap_map]
        exact List.flatMap_congr fun child member => children child (inside child member)
      cases node with
      | name lineno id =>
          have free : ∀ part ∈ partsOf (symbolOf symbols id), '.' ∉ part :=
            fun part member => free_of_mem_splitOn (List.mem_reverse.mp member)
          rw [expand, protocolsIn_chain lineno free, Node.nodes]
          exact (List.append_nil _).symm
      | «attribute» lineno value attr =>
          rw [expand, Node.nodes, Node.nodes, List.flatMap_cons, List.flatMap_cons,
            children value List.mem_cons_self, seen, visit, visit, visitAttribute_expand]
          simp [missed]
      | call lineno func args keywords =>
          have later := lists (func :: (args ++ keywords)) fun child member => member
          rw [List.map_cons, List.map_append, ← expandAll_eq, ← expandAll_eq] at later
          rw [nodes_eq, nodes_eq (.call ..), List.flatMap_cons, List.flatMap_cons, expand]
          refine congrArg₂ (· ++ ·) ?_ later
          rw [visit, seen, visit,
            visitCall_expand here hasFullModeCbc_of_hasModeCbc]
      | keyword arg value =>
          rw [expand, Node.nodes, Node.nodes, List.flatMap_cons, List.flatMap_cons,
            children value List.mem_cons_self]
          rfl
      | other list =>
          have kept := lists (list.filter fun child => !child.isImport)
            fun child member => (List.mem_filter.mp member).1
          rw [expand, Node.nodes, Node.nodes, List.flatMap_cons, List.flatMap_cons,
            expandBody_eq, nodesOf_eq, nodesOf_eq, kept]
          refine congrArg (_ ++ ·) ?_
          rw [List.flatMap_assoc, List.flatMap_assoc]
          exact flatMap_body symbols list
      | _ => rfl

/-! ## A module -/

/-- A module in full imports nothing. -/
theorem bindings_expand (symbols : Symbols) (node : Node) :
    (expand symbols node).nodes.flatMap Node.bindings = [] := by
  have chains : ∀ (lineno : Nat) (parts : List (List Char)),
      (chain lineno parts).nodes.flatMap Node.bindings = [] := by
    intro lineno parts
    induction parts with
    | nil => rfl
    | cons last rest inductionHypothesis =>
        cases rest with
        | nil => rfl
        | cons next rest => exact inductionHypothesis
  have lists : ∀ list : List Node,
      (∀ child ∈ list, (expand symbols child).nodes.flatMap Node.bindings = []) →
        ((list.map (expand symbols)).flatMap Node.nodes).flatMap Node.bindings = [] := by
    intro list each
    rw [List.flatMap_assoc, List.flatMap_map, List.flatMap_eq_nil_iff]
    exact each
  induction node using Node.induct with
  | step node inductionHypothesis =>
      cases node with
      | name lineno id =>
          rw [expand]
          exact chains lineno _
      | «attribute» lineno value attr =>
          rw [expand, Node.nodes, List.flatMap_cons,
            inductionHypothesis value List.mem_cons_self]
          rfl
      | call lineno func args keywords =>
          have later := lists (func :: (args ++ keywords)) inductionHypothesis
          rw [List.map_cons, List.map_append, ← expandAll_eq, ← expandAll_eq] at later
          rw [nodes_eq, List.flatMap_cons, expand]
          exact later
      | keyword arg value =>
          rw [expand, Node.nodes, List.flatMap_cons,
            inductionHypothesis value List.mem_cons_self]
          rfl
      | other list =>
          rw [expand, Node.nodes, List.flatMap_cons, expandBody_eq, nodesOf_eq]
          exact lists _ fun child member =>
            inductionHypothesis child (List.mem_filter.mp member).1
      | _ => rfl

theorem collectImports_expand (symbols : Symbols) (node : Node) :
    collectImports (expand symbols node) = .empty := by
  have nothing : (walk (expand symbols node)).flatMap Node.bindings = [] :=
    List.perm_nil.mp (((walk_perm _).flatMap_right Node.bindings).trans
      (List.Perm.of_eq (bindings_expand symbols node)))
  rw [collectImports, nothing]
  rfl

/-- The module with every name in full. -/
def inFull (tree : Node) : Node := expand (collectImports tree) tree

/-- Everything that is missed in a module. -/
def missedIn (tree : Node) : List AstHit :=
  (walk tree).flatMap (missed (collectImports tree))

/-- Every curve goes by its own name. -/
def KeepsCurves (tree : Node) : Prop :=
  ∀ node ∈ walk tree, KeepsCurve (collectImports tree) node

/-- What a module yields with every name in full: its own hits and the missed ones. -/
theorem analyze_inFull {tree : Node} (keeps : KeepsCurves tree) :
    (analyze (inFull tree)).Perm (analyze tree ++ missedIn tree) := by
  have full : (analyze (inFull tree)).Perm
      ((inFull tree).nodes.flatMap (visit .empty)) := by
    rw [analyze, inFull, collectImports_expand]
    exact (walk_perm _).flatMap_right _
  have same := @flatMap_expand (collectImports tree) tree fun inner inside =>
    keeps inner ((walk_perm tree).mem_iff.mpr inside)
  refine full.trans ((List.Perm.of_eq same).trans ?_)
  exact ((walk_perm tree).symm.flatMap_right _).trans (List.flatMap_append_perm ..).symm

/-- Two modules with the same names in full have the same hits up to order exactly when
they miss the same. -/
theorem analyze_respelled {left right : Node} (same : inFull left = inFull right)
    (keepsLeft : KeepsCurves left) (keepsRight : KeepsCurves right) :
    (analyze left).Perm (analyze right) ↔ (missedIn left).Perm (missedIn right) := by
  have both : (analyze left ++ missedIn left).Perm (analyze right ++ missedIn right) :=
    (analyze_inFull keepsLeft).symm.trans (same ▸ analyze_inFull keepsRight)
  constructor
  · intro hits
    exact (List.perm_append_left_iff _).mp ((hits.symm.append_right _).trans both)
  · intro misses
    exact (List.perm_append_right_iff _).mp (both.trans (misses.symm.append_left _))

/-! ## Two spellings -/

instance (symbols : Symbols) : DecidablePred (KeepsCurve symbols)
  | .call _ func args _ =>
      inferInstanceAs (Decidable (Calls symbols func "ec" "generate_private_key" →
        ecCurve args = fullCurve symbols args))
  | .name .. | .attribute .. | .keyword .. | .constStr _ | .constInt _ | .import_ _
  | .importFrom .. | .other _ => isTrue trivial

instance (tree : Node) : Decidable (KeepsCurves tree) :=
  inferInstanceAs (Decidable (∀ node ∈ walk tree, KeepsCurve (collectImports tree) node))

/-- `import hashlib, ssl`, then `hashlib.md5()` and `ssl.PROTOCOL_TLSv1`. -/
def attributeModule : Node :=
  .other [.import_ [⟨"hashlib".toList, none⟩, ⟨"ssl".toList, none⟩],
    .call 2 (.attribute 2 (.name 2 "hashlib".toList) "md5".toList) [] [],
    .attribute 3 (.name 3 "ssl".toList) "PROTOCOL_TLSv1".toList]

/-- `from hashlib import md5 as h` and `import ssl as s`, then `h()` and
`s.PROTOCOL_TLSv1`. -/
def aliasModule : Node :=
  .other [.importFrom (some "hashlib".toList) [⟨"md5".toList, some "h".toList⟩],
    .import_ [⟨"ssl".toList, some "s".toList⟩],
    .call 2 (.name 2 "h".toList) [] [],
    .attribute 3 (.name 3 "s".toList) "PROTOCOL_TLSv1".toList]

/-- `from ssl import PROTOCOL_TLSv1`, then `PROTOCOL_TLSv1`. -/
def nameModule : Node :=
  .other [.import_ [⟨"hashlib".toList, none⟩],
    .importFrom (some "ssl".toList) [⟨"PROTOCOL_TLSv1".toList, none⟩],
    .call 2 (.attribute 2 (.name 2 "hashlib".toList) "md5".toList) [] [],
    .name 3 "PROTOCOL_TLSv1".toList]

theorem analyze_respelled_aliases :
    (analyze attributeModule).Perm (analyze aliasModule) ∧
      ¬ (analyze attributeModule).Perm (analyze nameModule) := by
  have alike := @analyze_respelled attributeModule aliasModule rfl (by decide +kernel)
    (by decide +kernel)
  have apart := @analyze_respelled attributeModule nameModule rfl (by decide +kernel)
    (by decide +kernel)
  exact ⟨alike.mpr (by decide +kernel), fun same =>
    absurd (apart.mp same) (by decide +kernel)⟩

end Pyast
end Core
end PqcScan
