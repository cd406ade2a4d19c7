import PqcScan.Core.Bands
import PqcScan.Python.Str

/-!
# Scan targets

What `normalise_server_target` keeps of a scan target, the host that
`bind_context` gives to a network probe and the host and port that the TLS
probes connect to.
-/

namespace PqcScan
namespace Runner

open Library Python PqcScan.Core

/-! ## The parsers -/

/-- `normalise_server_target`. -/
def normaliseServerTarget (raw : List Char) : Option (List Char) :=
  let s := strip raw
  if s = [] then none
  else
    let s := match cut "://".toList s with
      | some (_, rest) => rest
      | none => s
    let s := strip (beforeFirst '/' s)
    if s = [] then none else some s

/-- `_target_host`. -/
def targetHost (serverTarget : List Char) : List Char :=
  if startsWith serverTarget "[" then beforeFirst ']' serverTarget.tail
  else beforeFirst ':' serverTarget

/-- What the parsers read of a scan context. -/
structure ScanContext where
  scanPaths : List (List Char)
  serverTarget : Option (List Char)

/-- What `bind_context` reads of a probe: its roots if they are a list, its host if it
is a string, and whether its family is `NETWORK`. -/
structure Probe where
  roots : Option (List (List Char))
  host : Option (List Char)
  network : Bool

/-- `bind_context`. -/
def bindContext (probe : Probe) (ctx : ScanContext) : Probe :=
  let serverTarget := ctx.serverTarget.getD []
  let wantRoots := ctx.scanPaths ≠ [] ∧ probe.roots.isSome
  let wantHost := serverTarget ≠ [] ∧ probe.host.isSome ∧ probe.network
  let newHost := targetHost serverTarget
  { probe with
    roots := if wantRoots then some ctx.scanPaths else probe.roots
    host := if wantHost ∧ newHost ≠ [] then some newHost else probe.host }

/-- `int(text)`, or `none` for a `ValueError`. -/
def intOf (text : List Char) : Option Int :=
  let text := strip text
  let (sign, digits) := match text with
    | '-' :: rest => ((-1 : Int), rest)
    | '+' :: rest => (1, rest)
    | _ => (1, text)
  if (digits.splitOn '_').all fun group => !group.isEmpty && group.all Char.isDigit then
    some (sign * Nat.ofDigitChars 10 (digits.filter (· ≠ '_')) 0)
  else none

/-- `_resolve_target` of a TLS probe with the target `own` of its own. -/
def resolveTarget (own : Option (List Char)) (ctx : ScanContext) :
    Option (List Char × Int) :=
  let raw := if own.getD [] = [] then ctx.serverTarget.getD [] else own.getD []
  if raw = [] then none
  else
    let host := beforeFirst ':' raw
    let port := afterFirst ':' raw
    if host = [] then none
    else if port = [] then some (host, 443)
    else (intOf port).map fun value => (host, value)

/-- `NetTlsKexGroups._resolve_target`. -/
def NetTlsKexGroups.resolveTarget : Option (List Char) → ScanContext →
    Option (List Char × Int) := Runner.resolveTarget

/-- `NetTlsCertChain._resolve_target`. -/
def NetTlsCertChain.resolveTarget : Option (List Char) → ScanContext →
    Option (List Char × Int) := Runner.resolveTarget

/-! ## What a user writes -/

/-- The host of a target: a name or an IPv4 address, or an IPv6 address. -/
inductive Host
  | named (name : List Char)
  | ipv6 (address : List Char)

/-- The characters of a URL between its delimiters. -/
def isPlain (char : Char) : Bool :=
  !isSpace char && !":/?#[]@".toList.contains char

/-- A host without what would end it. -/
def Host.WellFormed : Host → Prop
  | .named name => name ≠ [] ∧ ∀ char ∈ name, isPlain char = true
  | .ipv6 address => ':' ∈ address ∧
      ∀ char ∈ address, (isHexDigit char || char == ':' || char == '.') = true

/-- The text of the host itself. -/
def Host.text : Host → List Char
  | .named name => name
  | .ipv6 address => address

/-- The host inside a target, an IPv6 address in brackets. -/
def Host.bracketed : Host → List Char
  | .named name => name
  | .ipv6 address => '[' :: address ++ [']']

/-- A scan target: a host with a port and the dressing of a URL. -/
structure Target where
  scheme : Option (List Char)
  host : Host
  port : Option Nat
  path : List Char
  query : List Char
  scheme_plain : ∀ name ∈ scheme, name ≠ [] ∧ ∀ char ∈ name, isPlain char = true
  host_wellFormed : host.WellFormed
  port_bound : ∀ number ∈ port, number < 2 ^ 16
  path_slash : path ≠ [] → path.head? = some '/'
  query_mark : query ≠ [] → query.head? = some '?'
  spaceless : ∀ char ∈ path ++ query, isSpace char = false

namespace Target

/-- `host[:port]`. -/
def authority (target : Target) : List Char :=
  target.host.bracketed ++
    match target.port with
    | some number => ':' :: Nat.toDigits 10 number
    | none => []

/-- What comes after the authority. -/
def tail (target : Target) : List Char := target.path ++ target.query

/-- The text of the target. -/
def render (target : Target) : List Char :=
  match target.scheme with
  | some name => name ++ "://".toList ++ (target.authority ++ target.tail)
  | none => target.authority ++ target.tail

/-- The context of a scan of the target. -/
def context (target : Target) : ScanContext where
  scanPaths := []
  serverTarget := normaliseServerTarget target.render

/-- The normaliser, the runner and the TLS probes take the target for what it is. -/
structure ParsedAlike (target : Target) : Prop where
  normalised : normaliseServerTarget target.render = some target.authority
  bound : ∀ probe : Probe, probe.network = true → probe.host.isSome →
    (bindContext probe target.context).host = some target.host.text
  kexGroups : NetTlsKexGroups.resolveTarget none target.context =
    some (target.host.text, ((target.port.getD 443 : Nat) : Int))
  certChain : NetTlsCertChain.resolveTarget none target.context =
    some (target.host.text, ((target.port.getD 443 : Nat) : Int))

/-- The dressing comes off: without a scheme nothing in path and query looks like one
(unless the authority stands there again), and a query has a path before it. -/
def Undressed (target : Target) : Prop :=
  match target.scheme, cut "://".toList target.tail with
  | none, some (_, rest) => beforeFirst '/' rest = target.authority
  | _, _ => target.path ≠ [] ∨ target.query = []

/-! ## Characters -/

theorem isPlain_iff {char : Char} :
    isPlain char = true ↔ isSpace char = false ∧ char ∉ ":/?#[]@".toList := by
  simp [isPlain]

/-- A plain character is none of the delimiters. -/
theorem not_mem_of_plain {text : List Char} {delimiter : Char}
    (plain : ∀ char ∈ text, isPlain char = true)
    (delimits : delimiter ∈ ":/?#[]@".toList) : delimiter ∉ text := by
  intro member
  exact (isPlain_iff.mp (plain delimiter member)).2 delimits

theorem digit_plain {number : Nat} {char : Char}
    (digit : char ∈ Nat.toDigits 10 number) : isPlain char = true := by
  have codes : ∀ code : Fin 128, (Char.ofNat code).isDigit = true →
      isPlain (Char.ofNat code) = true := by decide
  have isDigit := Nat.isDigit_of_mem_toDigits (by decide) (by decide) digit
  have low : char.toNat < 128 := by
    simp only [Char.isDigit, Bool.and_eq_true, decide_eq_true_eq] at isDigit
    exact lt_of_le_of_lt isDigit.2 (by decide)
  simpa [isDigit] using codes ⟨char.toNat, low⟩

theorem scheme_mark : "://".toList = [':', '/', '/'] := by decide

/-! ## The authority of a name -/

section Named

variable {target : Target} {name : List Char} (named : target.host = .named name)

include named

theorem name_plain : ∀ char ∈ name, isPlain char = true := by
  have wellFormed := target.host_wellFormed
  rw [named] at wellFormed
  exact wellFormed.2

theorem name_ne_nil : name ≠ [] := by
  have wellFormed := target.host_wellFormed
  rw [named] at wellFormed
  exact wellFormed.1

theorem authority_ne_nil : target.authority ≠ [] := by
  simp [authority, named, Host.bracketed, name_ne_nil named]

/-- The authority has plain characters and at most a colon before the port. -/
theorem authority_char {char : Char} (member : char ∈ target.authority) :
    isPlain char = true ∨ char = ':' := by
  simp only [authority, named, Host.bracketed, List.mem_append] at member
  rcases member with inName | inPort
  · exact .inl (name_plain named char inName)
  · split at inPort
    · rcases List.mem_cons.mp inPort with colon | digit
      · exact .inr colon
      · exact .inl (digit_plain digit)
    · cases inPort

theorem authority_spaceless : ∀ char ∈ target.authority, isSpace char = false := by
  intro char member
  rcases authority_char named member with plain | rfl
  · exact (isPlain_iff.mp plain).1
  · decide

theorem slash_not_mem_authority : '/' ∉ target.authority := by
  intro member
  rcases authority_char named member with plain | colon
  · exact (isPlain_iff.mp plain).2 (by decide)
  · cases colon

/-- A scheme mark in a target without a scheme comes after the authority. -/
theorem cut_authority (text : List Char) :
    cut "://".toList (target.authority ++ text) =
      (cut "://".toList text).map fun parts => (target.authority ++ parts.1,
        parts.2) := by
  have colonless := not_mem_of_plain (name_plain named)
    (by decide : ':' ∈ ":/?#[]@".toList)
  rw [scheme_mark]
  simp only [authority, named, Host.bracketed]
  cases target.port with
  | none =>
      rw [List.append_nil]
      exact cut_append colonless text
  | some number =>
      have digitsColonless : ':' ∉ Nat.toDigits 10 number :=
        not_mem_of_plain (fun _ digit => digit_plain digit)
          (by decide : ':' ∈ ":/?#[]@".toList)
      have digitsSlashless : '/' ∉ Nat.toDigits 10 number :=
        not_mem_of_plain (fun _ digit => digit_plain digit)
          (by decide : '/' ∈ ":/?#[]@".toList)
      have colon : cut [':', '/', '/'] (':' :: (Nat.toDigits 10 number ++ text)) =
          (cut [':', '/', '/'] text).map fun parts =>
            (':' :: (Nat.toDigits 10 number ++ parts.1), parts.2) := by
        -- The mark does not start at the colon: a digit follows it.
        have digit : ¬ ['/', '/'] <+: Nat.toDigits 10 number ++ text := by
          cases digits : Nat.toDigits 10 number with
          | nil => exact absurd digits Nat.toDigits_ne_nil
          | cons first rest =>
              intro starts
              rw [List.cons_append, List.cons_prefix_cons] at starts
              apply digitsSlashless
              rw [digits, starts.1]
              exact List.mem_cons_self
        rw [cut, if_neg (by simpa using digit), cut_append digitsColonless,
          Option.map_map]
        rfl
      rw [List.append_assoc, cut_append colonless, List.cons_append, colon,
        Option.map_map]
      simp [Function.comp_def]

/-! ## Normalising -/

theorem render_spaceless : ∀ char ∈ target.render, isSpace char = false := by
  have body : ∀ char ∈ target.authority ++ target.tail, isSpace char = false := by
    intro char member
    rcases List.mem_append.mp member with front | back
    · exact authority_spaceless named char front
    · exact target.spaceless char back
  intro char member
  unfold render at member
  split at member
  · next scheme given =>
    rcases List.mem_append.mp member with front | back
    · rcases List.mem_append.mp front with inScheme | inMark
      · have plain := (target.scheme_plain scheme given).2 char inScheme
        exact (isPlain_iff.mp plain).1
      · have mark : ∀ char ∈ "://".toList, isSpace char = false := by decide
        exact mark char inMark
    · exact body char back
  · exact body char member

/-- The text after the scheme mark that the normaliser finds. -/
def afterScheme (target : Target) : List Char :=
  match target.scheme, cut "://".toList target.tail with
  | none, some (_, rest) => rest
  | _, _ => target.authority ++ target.tail

theorem afterScheme_eq :
    (match cut "://".toList target.render with
      | some (_, rest) => rest
      | none => target.render) = target.afterScheme := by
  unfold render afterScheme
  cases given : target.scheme with
  | some scheme =>
      have colonless := not_mem_of_plain (target.scheme_plain scheme given).2
        (by decide : ':' ∈ ":/?#[]@".toList)
      have found : cut "://".toList
          (scheme ++ "://".toList ++ (target.authority ++ target.tail)) =
          some (scheme, target.authority ++ target.tail) := by
        rw [List.append_assoc, scheme_mark, cut_append colonless,
          @cut_of_starts [':', '/', '/'] _ (by simp)]
        simp
      simp only [found]
  | none =>
      simp only [cut_authority named]
      cases cut "://".toList target.tail with
      | none => rfl
      | some parts => rfl

theorem afterScheme_spaceless : ∀ char ∈ target.afterScheme, isSpace char = false := by
  have body : ∀ char ∈ target.authority ++ target.tail, isSpace char = false := by
    intro char member
    rcases List.mem_append.mp member with front | back
    · exact authority_spaceless named char front
    · exact target.spaceless char back
  intro char member
  unfold afterScheme at member
  split at member
  · next found =>
    apply target.spaceless
    change char ∈ target.tail
    rw [cut_eq_some found]
    exact List.mem_append_right _ member
  · exact body char member

/-- The path ends the authority; a query alone does not. -/
theorem beforeFirst_body :
    beforeFirst '/' (target.authority ++ target.tail) = target.authority ↔
      target.path ≠ [] ∨ target.query = [] := by
  rw [beforeFirst_append (slash_not_mem_authority named), List.append_right_eq_self]
  unfold tail
  cases path : target.path with
  | cons first rest =>
      have slash := target.path_slash (by simp [path])
      rw [path, List.head?_cons, Option.some.injEq] at slash
      rw [slash, List.cons_append, beforeFirst_cons]
      simp
  | nil =>
      cases query : target.query with
      | nil => simp [beforeFirst, cut]
      | cons first rest =>
          have mark := target.query_mark (by simp [query])
          rw [query, List.head?_cons, Option.some.injEq] at mark
          have kept := @beforeFirst_append '/' ['?'] (by decide) rest
          rw [List.nil_append, mark]
          rw [List.singleton_append, List.singleton_append] at kept
          simp [kept]

/-- The normaliser finds the authority exactly when the dressing comes off. -/
theorem normalised_iff :
    normaliseServerTarget target.render = some target.authority ↔ target.Undressed := by
  have nonempty : target.render ≠ [] := by
    unfold render
    split
    · simp [scheme_mark]
    · simp [authority_ne_nil named]
  have kept : ∀ char ∈ beforeFirst '/' target.afterScheme, isSpace char = false := by
    intro char member
    exact afterScheme_spaceless named char (beforeFirst_subset _ _ member)
  have reduced : normaliseServerTarget target.render = some target.authority ↔
      beforeFirst '/' target.afterScheme = target.authority := by
    unfold normaliseServerTarget
    simp only [strip_eq_self (render_spaceless named), nonempty, if_false,
      afterScheme_eq named, strip_eq_self kept]
    constructor
    · intro found
      split at found
      · cases found
      · exact Option.some.inj found
    · intro same
      rw [same, if_neg (authority_ne_nil named)]
  rw [reduced]
  unfold afterScheme Undressed
  split
  · rfl
  · exact beforeFirst_body named

/-! ## Host and port -/

/-- The port part of the authority. -/
def portText (target : Target) : List Char :=
  match target.port with
  | some number => ':' :: Nat.toDigits 10 number
  | none => []

theorem authority_eq : target.authority = name ++ target.portText := by
  simp only [authority, portText, named, Host.bracketed]

theorem beforeColon : beforeFirst ':' target.authority = name := by
  have colonless := not_mem_of_plain (name_plain named)
    (by decide : ':' ∈ ":/?#[]@".toList)
  rw [authority_eq named, beforeFirst_append colonless]
  unfold portText
  split
  · rw [beforeFirst_cons, List.append_nil]
  · exact List.append_nil name

theorem targetHost_authority : targetHost target.authority = name := by
  have bracketless := not_mem_of_plain (name_plain named)
    (by decide : '[' ∈ ":/?#[]@".toList)
  have unbracketed : startsWith target.authority "[" = false := by
    rw [Bool.eq_false_iff, Ne, startsWith_iff, authority_eq named]
    cases shape : name with
    | nil => exact absurd shape (name_ne_nil named)
    | cons first rest =>
        have bracket : "[".toList = ['['] := by decide
        rw [bracket, List.cons_append, List.cons_prefix_cons]
        rintro ⟨same, -⟩
        apply bracketless
        rw [shape, same]
        exact List.mem_cons_self
  rw [targetHost, unbracketed]
  exact beforeColon named

omit named in
theorem intOf_digits (number : Nat) :
    intOf (Nat.toDigits 10 number) = some (number : Int) := by
  have plain : ∀ char ∈ Nat.toDigits 10 number, isPlain char = true :=
    fun _ digit => digit_plain digit
  have stripped := strip_eq_self fun char digit => (isPlain_iff.mp (plain char digit)).1
  have digits : ∀ char ∈ Nat.toDigits 10 number, char.isDigit = true :=
    fun _ digit => Nat.isDigit_of_mem_toDigits (by decide) (by decide) digit
  have unsigned : ∀ sign : Char, sign.isDigit = false →
      (Nat.toDigits 10 number).head? ≠ some sign := by
    intro sign notDigit first
    have digit := digits sign (List.mem_of_head? first)
    rw [notDigit] at digit
    cases digit
  have underscoreless := @Nat.underscore_not_in_toDigits number
  have single : (Nat.toDigits 10 number).splitOn '_' = [Nat.toDigits 10 number] :=
    List.splitOn_eq_singleton underscoreless
  have kept : (Nat.toDigits 10 number).filter (· ≠ '_') = Nat.toDigits 10 number := by
    apply List.filter_eq_self.mpr
    intro char digit
    simp only [decide_eq_true_eq]
    rintro rfl
    exact underscoreless digit
  have minus := unsigned '-' (by decide)
  have plus := unsigned '+' (by decide)
  have filled := @Nat.toDigits_ne_nil number 10
  have value := @Nat.ofDigitChars_ten_toDigits number
  unfold intOf
  simp only [stripped]
  generalize Nat.toDigits 10 number = text at *
  split
  · exact absurd rfl minus
  · exact absurd rfl plus
  · rw [single, if_pos (by simp [filled, List.all_eq_true.mpr digits]), kept, value,
      one_mul]

end Named

/-! ## All readers -/

theorem resolveTarget_authority {name : List Char} {target : Target}
    (named : target.host = .named name) {ctx : ScanContext}
    (given : ctx.serverTarget = some target.authority) :
    Runner.resolveTarget none ctx =
      some (name, ((target.port.getD 443 : Nat) : Int)) := by
  have colonless := not_mem_of_plain (name_plain named)
    (by decide : ':' ∈ ":/?#[]@".toList)
  unfold Runner.resolveTarget
  simp only [Option.getD_none, if_true, given, Option.getD_some, authority_ne_nil named,
    if_false, beforeColon named, name_ne_nil named]
  rw [authority_eq named]
  unfold portText
  cases target.port with
  | none =>
      rw [List.append_nil, afterFirst_of_free colonless, if_pos rfl]
      rfl
  | some number =>
      rw [afterFirst_append colonless, if_neg Nat.toDigits_ne_nil, intOf_digits]
      rfl

/-- The TLS probes never connect to an IPv6 address. -/
theorem resolveTarget_ipv6 {address : List Char} {target : Target} {port : Int}
    (bracketed : target.host = .ipv6 address) {ctx : ScanContext}
    (given : ctx.serverTarget = some target.authority) :
    Runner.resolveTarget none ctx ≠ some (address, port) := by
  have wellFormed := target.host_wellFormed
  rw [bracketed] at wellFormed
  have bracketless : '[' ∉ address := by
    intro member
    have char := wellFormed.2 '[' member
    revert char
    decide
  obtain ⟨rest, shape⟩ : ∃ rest, target.authority = '[' :: rest := by
    simp [authority, bracketed, Host.bracketed]
  have host : beforeFirst ':' target.authority = '[' :: beforeFirst ':' rest := by
    rw [shape]
    exact @beforeFirst_append ':' ['['] (by decide) rest
  intro resolved
  simp only [Runner.resolveTarget, Option.getD_none, if_true, given, Option.getD_some,
    host, reduceCtorEq, if_false] at resolved
  have same : '[' :: beforeFirst ':' rest = address := by
    split at resolved
    · cases resolved
    split at resolved
    · exact congrArg Prod.fst (Option.some.inj resolved)
    · obtain ⟨_, -, equal⟩ := Option.map_eq_some_iff.mp resolved
      exact congrArg Prod.fst equal
  apply bracketless
  rw [← same]
  exact List.mem_cons_self

/-- The readers agree exactly on targets that are no IPv6 address and
whose dressing comes off. -/
theorem parsedAlike_iff (target : Target) :
    target.ParsedAlike ↔ (∃ name, target.host = .named name) ∧ target.Undressed := by
  cases host : target.host with
  | named name =>
      constructor
      · intro alike
        exact ⟨⟨name, rfl⟩, (normalised_iff host).mp alike.normalised⟩
      · rintro ⟨-, undressed⟩
        have normalised := (normalised_iff host).mpr undressed
        refine ⟨normalised, ?_, ?_, ?_⟩
        · intro probe network hosted
          simp [bindContext, context, normalised, authority_ne_nil host, network, hosted,
            targetHost_authority host, name_ne_nil host, host, Host.text]
        · rw [host]
          exact resolveTarget_authority host normalised
        · rw [host]
          exact resolveTarget_authority host normalised
  | ipv6 address =>
      constructor
      · intro alike
        have resolved := alike.kexGroups
        rw [host] at resolved
        exact absurd resolved (resolveTarget_ipv6 host alike.normalised)
      · rintro ⟨⟨name, differs⟩, -⟩
        cases differs

/-- An IPv6 target with a port. -/
def ipv6Target : Target where
  scheme := none
  host := .ipv6 "2001:db8::1".toList
  port := some 8443
  path := []
  query := []
  scheme_plain := by simp
  host_wellFormed := by
    constructor
    · decide
    · decide
  port_bound := by simp
  path_slash := by simp
  query_mark := by simp
  spaceless := by simp

/-- The TLS probes skip an IPv6 target that the other probes scan. -/
theorem ipv6Target_not_alike : ¬ ∀ target : Target, target.ParsedAlike := by
  intro alike
  have skipped : NetTlsKexGroups.resolveTarget none ipv6Target.context = none := by
    decide
  have resolved := (alike ipv6Target).kexGroups
  rw [skipped] at resolved
  cases resolved

end Target

end Runner
end PqcScan
