import PqcScan.Core.Parity
import PqcScan.Library.Joining

/-!
# Ports in parity keys

Whether the parity keys of two endpoints differ that differ in the port alone.  A key has
the port at its end unless the normalised title has a colon and the digits of the port.
-/

namespace PqcScan
namespace Core

open Library Python

/-! ## What a title says of a port -/

/-- The core of a token: what `_norm_token` matches. -/
def coreOf (token : List Char) : List Char :=
  ((token.dropWhile (openers.contains ·)).reverse.dropWhile (closers.contains ·)).reverse

/-- The token is an address with the port. -/
def namesPort (text : Text) (port : List Char) (token : List Char) : Bool :=
  hostPort text (coreOf token) == some port

/-- A title that has the port in an address of its own. -/
def States (text : Text) (title : String) (port : List Char) : Prop :=
  ∃ token ∈ splitWords (title.toList.take maxTitleNormalise),
    namesPort text port token = true

/-- A colon and the digits of the port are in what the token is normalised to: the digits
begin the port of an address, or they follow a colon in a text that is no address. -/
def tokenMentions (text : Text) (port : List Char) (afterAt : Bool)
    (token : List Char) : Prop :=
  match hostPort text (coreOf token) with
  | some stated => port <+: stated
  | none =>
      isLiteral text (coreOf token) = false ∧
        ':' :: port <:+: if afterAt then
          (afterName text (coreOf token)).getD (coreOf token)
          else coreOf token

/-- Some token of the title mentions the port. -/
def mentions (text : Text) (port : List Char) : Bool → List (List Char) → Prop
  | _, [] => False
  | afterAt, token :: tokens =>
      tokenMentions text port afterAt token ∨
        mentions text port (token == "at".toList && !afterAt) tokens

/-- The title without the host, as far as it is examined. -/
def hostless (text : Text) (title host : String) : List Char :=
  let examined := title.toList.take maxTitleNormalise
  if host = "" then examined else replaceHost text (host.toList.take 253) 0 none examined

/-- The normalised title mentions the port. -/
def Mentions (text : Text) (title host : String) (port : List Char) : Prop :=
  mentions text port false (splitWords (hostless text title host))

/-! ## The last colon -/

theorem splitLastColon_of_not_mem {chars : List Char} (absent : ':' ∉ chars) :
    splitLastColon chars = none := by
  rw [splitLastColon, List.splitOn_eq_singleton absent]
  rfl

theorem splitLastColon_append (front : List Char) {last : List Char}
    (absent : ':' ∉ last) :
    splitLastColon (front ++ ':' :: last) = some (front, last) := by
  rw [splitLastColon, List.splitOn_append_cons_self, List.splitOn_eq_singleton absent,
    List.reverse_append, List.reverse_singleton, List.singleton_append]
  obtain ⟨before, rest, parts⟩ := List.exists_cons_of_ne_nil
    (List.reverse_eq_nil_iff.not.mpr (List.splitOn_ne_nil ':' front))
  rw [parts]
  dsimp only
  rw [← parts, List.reverse_reverse, List.intercalate_splitOn]

/-- What follows the last colon has none. -/
theorem plain_of_splitLastColon {chars front last : List Char}
    (split : splitLastColon chars = some (front, last)) : ':' ∉ last := by
  by_cases present : ':' ∈ chars
  · obtain ⟨back, before, whole, absent⟩ :=
      List.eq_append_cons_of_mem (List.mem_reverse.mpr present)
    have parts : chars = before.reverse ++ ':' :: back.reverse := by
      rw [← List.reverse_reverse chars, whole, List.reverse_append, List.reverse_cons,
        List.append_assoc, List.singleton_append]
    have plain : ':' ∉ back.reverse := List.mem_reverse.not.mpr absent
    rw [parts, splitLastColon_append _ plain] at split
    cases split
    exact plain
  · rw [splitLastColon_of_not_mem present] at split
    cases split

section Tokens

variable {text : Text} {port : List Char}

theorem plain_of_hostPort {chars stated : List Char}
    (address : hostPort text chars = some stated) :
    ':' ∉ stated := by
  rw [hostPort] at address
  split at address
  · next host last split =>
    obtain ⟨-, same⟩ := Option.ite_none_right_eq_some.mp address
    rw [← Option.some.inj same]
    exact plain_of_splitLastColon split
  · cases address

/-- Characters that are neither a colon nor a digit are not in a port behind a colon. -/
theorem apart_of_port (digits : ∀ char ∈ port, char.isDigit = true) {around : List Char}
    (other : ∀ char ∈ around, char ≠ ':' ∧ char.isDigit = false) :
    ∀ char ∈ around, char ∉ ':' :: port := by
  intro char inside member
  rcases List.mem_cons.mp member with rfl | digit
  · exact (other ':' inside).1 rfl
  · exact absurd (digits char digit) (Bool.eq_false_iff.mp (other char inside).2)

theorem normToken_infix {token : List Char} {afterAt : Bool}
    (digits : ∀ char ∈ port, char.isDigit) :
    ':' :: port <:+: normToken text token afterAt ↔
    tokenMentions text port afterAt token := by
  have filled : ':' :: port ≠ [] := List.cons_ne_nil _ _
  have lead : ∀ char ∈ token.takeWhile (openers.contains ·), char ∉ ':' :: port := by
    apply apart_of_port digits
    intro char member
    have opener := List.all_eq_true.mp List.all_takeWhile char member
    have all : ∀ char ∈ openers, char ≠ ':' ∧ char.isDigit = false := by decide
    exact all char (List.contains_iff_mem.mp opener)
  have tail : ∀ char ∈ ((token.dropWhile (openers.contains ·)).reverse.takeWhile
      (closers.contains ·)).reverse, char ∉ ':' :: port := by
    apply apart_of_port digits
    intro char member
    have closer := List.all_eq_true.mp List.all_takeWhile char
      (List.mem_reverse.mp member)
    have all : ∀ char ∈ closers, char ≠ ':' ∧ char.isDigit = false := by decide
    exact all char (List.contains_iff_mem.mp closer)
  have mark : ∀ char ∈ "<host>".toList, char ∉ ':' :: port :=
    apart_of_port digits (by decide)
  rw [normToken, tokenMentions, infix_before filled tail,
    infix_behind filled lead, ← coreOf]
  cases address : hostPort text (coreOf token) with
  | some stated =>
      have written : "<host>:".toList ++ stated = "<host>".toList ++ ':' :: stated := rfl
      dsimp only
      rw [written, infix_behind filled mark, List.infix_cons_iff, List.cons_prefix_cons,
        and_iff_right rfl, or_iff_left]
      intro within
      exact plain_of_hostPort address (within.subset List.mem_cons_self)
  | none =>
      dsimp only
      by_cases literal : isLiteral text (coreOf token) = true
      · rw [if_pos literal, literal, ← List.append_nil "<host>".toList,
          infix_behind filled mark]
        simp
      · rw [if_neg literal, Bool.eq_false_iff.mpr literal, and_iff_right rfl]
        by_cases at_ : afterAt = true
        · rw [if_pos at_, if_pos at_]
          cases afterName text (coreOf token) with
          | some rest =>
              dsimp only [Option.getD_some]
              rw [infix_behind filled mark]
          | none => rfl
        · rw [if_neg at_, if_neg at_]

theorem token_parts (token : List Char) :
    token.takeWhile (openers.contains ·) ++ coreOf token ++
      ((token.dropWhile (openers.contains ·)).reverse.takeWhile
        (closers.contains ·)).reverse = token := by
  rw [coreOf, List.append_assoc, ← List.reverse_append, List.takeWhile_append_dropWhile,
    List.reverse_reverse, List.takeWhile_append_dropWhile]

/-- A token is kept, or it is normalised to a text with the mark of a host. -/
theorem normToken_kept_or_marked (token : List Char) (afterAt : Bool) :
    normToken text token afterAt = token ∨ '<' ∈ normToken text token afterAt := by
  have kept := token_parts token
  rw [normToken, ← coreOf]
  cases hostPort text (coreOf token) with
  | some stated => simp
  | none =>
      by_cases literal : isLiteral text (coreOf token) = true
      · simp [literal]
      · by_cases at_ : afterAt = true
        · cases afterName text (coreOf token) with
          | some rest => simp [literal, at_]
          | none =>
              left
              simpa [literal, at_] using kept
        · left
          simpa [literal, at_] using kept

/-- Only `at` itself is normalised to `at`, and not behind another one. -/
theorem normToken_at (token : List Char) (afterAt : Bool) :
    (normToken text token afterAt == "at".toList) =
      (token == "at".toList && !afterAt) := by
  have unmarked : '<' ∉ "at".toList := by decide
  by_cases word : token = "at".toList
  · have core : coreOf "at".toList = "at".toList := by decide
    have address : hostPort text "at".toList = none := by
      rw [hostPort, splitLastColon_of_not_mem (by decide)]
    have ipv4 : isIpv4 text "at".toList = false := by
      have groups : ("at".toList.splitOn '.').length = 1 := by decide
      rw [isIpv4, groups]
      rfl
    have literal : isLiteral text "at".toList = false := by
      have ipv6 : isIpv6Parts ("at".toList.splitOn ':') = false := by decide
      rw [isLiteral, ipv4, ipv6]
      rfl
    rw [word, beq_self_eq_true, Bool.true_and]
    cases afterAt with
    | false =>
        have kept := token_parts "at".toList
        rw [core] at kept
        rw [normToken, ← coreOf, core, address]
        dsimp only
        rw [literal, if_neg Bool.false_ne_true, if_neg Bool.false_ne_true, kept]
        rfl
    | true =>
        have name : afterName text "at".toList = some ("t".toList.dropWhile fun char =>
          isWord text char || char == '.' || char == '-') := rfl
        have marked : '<' ∈ normToken text "at".toList true := by
          rw [normToken, ← coreOf, core, address]
          dsimp only
          rw [literal, if_neg Bool.false_ne_true, if_pos rfl, name]
          exact List.mem_append_left _ (List.mem_append_right _
            (List.mem_append_left _ (by decide)))
        rw [Bool.not_true, beq_eq_false_iff_ne]
        intro same
        rw [same] at marked
        exact unmarked marked
  · rw [beq_false_of_ne word, Bool.false_and, beq_eq_false_iff_ne]
    intro same
    rcases @normToken_kept_or_marked text token afterAt with kept | marked
    · exact word (kept.symm.trans same)
    · rw [same] at marked
      exact unmarked marked

theorem normTokens_infix (digits : ∀ char ∈ port, char.isDigit) (afterAt : Bool)
    (tokens : List (List Char)) :
    (∃ normed ∈ normTokens text afterAt tokens, ':' :: port <:+: normed) ↔
      mentions text port afterAt tokens := by
  induction tokens generalizing afterAt with
  | nil => simp [normTokens, mentions]
  | cons token tokens inductionHypothesis =>
      rw [normTokens, mentions, List.exists_mem_cons_iff, normToken_infix digits,
        inductionHypothesis, normToken_at]

/-- The normalised title mentions what its tokens mention. -/
theorem normTitle_infix (digits : ∀ char ∈ port, char.isDigit) (title host : String) :
    ':' :: port <:+: normTitle text title host ↔ Mentions text title host port := by
  have plain : ' ' ∉ ':' :: port := by
    exact @apart_of_port port digits [' '] (by decide) ' ' List.mem_cons_self
  rw [normTitle, infix_intercalate plain (List.cons_ne_nil _ _), normTokens_infix digits]
  rfl

end Tokens

/-! ## Keys of two ports -/

/-- The finding with an endpoint at the port. -/
def ParityRow.atPort (row : ParityRow) (address : String) (port : Nat) : ParityRow :=
  { row with
    evidence := row.evidence.set "endpoint" (.str (address ++ ":" ++ toString port)) }

/-- The digits of a port that are left where the endpoint is cut. -/
def seenPort (address : String) (port : Nat) : List Char :=
  (toString port).toList.take (maxTitleNormalise - (address.toList.length + 1))

/-- The part of the key that comes from the title and the port. -/
def portMark (norm port : List Char) : List Char :=
  if spans 1 5 Char.isDigit port && !norm.tails.any ((':' :: port).isPrefixOf ·) then
    norm ++ " [:".toList ++ port ++ [']']
  else norm

/-- What stands for the port of an endpoint. -/
def endpointPort (endpoint : List Char) : List Char :=
  match splitLastColon endpoint with
  | some (_, last) => last
  | none => endpoint

section Keys

variable {text : Text} {row : ParityRow} {address : String}

theorem parityKey_atPort
      (pathless : ∀ path ∈ row.evidence.get? "path", path.truthy = false)
    (port : Nat) :
    parityKey text (row.atPort address port) = (row.probeId, row.algorithm,
      String.ofList (portMark
        (normTitle text row.title (evidenceStr text row.evidence "host"))
        (endpointPort
          ((address ++ ":" ++ toString port).toList.take maxTitleNormalise)))) := by
  have kept : ∀ key, key ≠ "endpoint" →
      (row.atPort address port).evidence.get? key = row.evidence.get? key := by
    intro key other
    rw [ParityRow.atPort, Dict.get?_set, if_neg other]
  have host : evidenceStr text (row.atPort address port).evidence "host" =
      evidenceStr text row.evidence "host" := by
    rw [evidenceStr, evidenceStr, kept "host" (by decide)]
  have endpoint : evidenceStr text (row.atPort address port).evidence "endpoint" =
      address ++ ":" ++ toString port := by
    have filled : (Json.str (address ++ ":" ++ toString port)).truthy = true := by
      rw [Json.truthy, bne_iff_ne]
      intro empty
      have length := congrArg (fun text => text.toList.length) empty
      simp at length
    rw [evidenceStr, ParityRow.atPort, Dict.get?_set, if_pos rfl]
    dsimp only
    rw [if_pos filled]
    rfl
  have key : parityKey.titleKey text (row.atPort address port) =
      (row.probeId, row.algorithm,
        String.ofList (portMark
          (normTitle text row.title (evidenceStr text row.evidence "host"))
        (endpointPort
          ((address ++ ":" ++ toString port).toList.take maxTitleNormalise)))) := by
    rw [parityKey.titleKey, host, endpoint]
    rfl
  rw [parityKey, kept "path" (by decide)]
  cases path : row.evidence.get? "path" with
  | none => exact key
  | some path_ =>
      dsimp only
      rw [pathless path_ path, if_neg Bool.false_ne_true]
      exact key

theorem toString_digits (port : Nat) : ∀ char ∈ (toString port).toList,
      char.isDigit = true := by
  intro char member
  rw [Nat.toString_eq_repr, Nat.toList_repr] at member
  exact Nat.isDigit_of_mem_toDigits (by decide) (by decide) member

theorem seenPort_digits (address : String) (port : Nat) :
    ∀ char ∈ seenPort address port, char.isDigit = true := fun char member =>
  toString_digits port char (List.mem_of_mem_take member)

/-- Behind an address that is not cut the digits that are left stand for the port. -/
theorem endpointPort_eq (fits : address.toList.length < maxTitleNormalise) (port : Nat) :
    endpointPort ((address ++ ":" ++ toString port).toList.take maxTitleNormalise) =
      seenPort address port := by
  have cut : (address ++ ":" ++ toString port).toList.take maxTitleNormalise =
      address.toList ++ ':' :: seenPort address port := by
    have distance : maxTitleNormalise - address.toList.length =
        maxTitleNormalise - (address.toList.length + 1) + 1 := by omega
    rw [String.toList_append, String.toList_append, List.append_assoc, List.take_append,
      List.take_of_length_le (Nat.le_of_lt fits), distance]
    rfl
  have plain : ':' ∉ seenPort address port := fun member =>
    absurd (seenPort_digits address port ':' member) (by decide)
  rw [cut, endpointPort, splitLastColon_append _ plain]

/-- A cut address hides the port. -/
theorem endpointPort_cut (cut : maxTitleNormalise ≤ address.toList.length) (p q : Nat) :
    (address ++ ":" ++ toString p).toList.take maxTitleNormalise =
      (address ++ ":" ++ toString q).toList.take maxTitleNormalise := by
  simp only [String.toList_append, List.append_assoc, List.take_append_of_le_length cut]

theorem seenPort_cut (cut : maxTitleNormalise ≤ address.toList.length + 1) (port : Nat) :
    seenPort address port = [] := by
  rw [seenPort, Nat.sub_eq_zero_of_le cut, List.take_zero]

theorem spans_seenPort {port : Nat} (valid : port ≤ 65535)
    (filled : seenPort address port ≠ []) :
    spans 1 5 Char.isDigit (seenPort address port) = true := by
  have length : (toString port).toList.length ≤ 5 := by
    rw [Nat.toString_eq_repr, Nat.toList_repr,
      Nat.length_toDigits_le_iff (by decide) (by decide)]
    omega
  have shorter : (seenPort address port).length ≤ 5 :=
    Nat.le_trans (List.length_take_le' _ _) length
  have longer := List.length_pos_iff.mpr filled
  simp only [spans, Bool.and_eq_true, decide_eq_true_eq, List.all_eq_true]
  exact ⟨⟨longer, shorter⟩, seenPort_digits address port⟩

/-- The marks of two ports differ unless the title has both. -/
theorem portMark_ne_iff {norm p q : List Char} (first : spans 1 5 Char.isDigit p = true)
    (second : spans 1 5 Char.isDigit q = true) :
    portMark norm p ≠ portMark norm q ↔
      p ≠ q ∧ ¬ (':' :: p <:+: norm ∧ ':' :: q <:+: norm) := by
  have within : ∀ port : List Char,
      norm.tails.any ((':' :: port).isPrefixOf ·) = true ↔ ':' :: port <:+: norm := by
    intro port
    rw [List.any_eq_true, List.infix_iff_prefix_suffix]
    simp only [List.mem_tails, List.isPrefixOf_iff_prefix, and_comm]
  have longer : ∀ port : List Char, norm ≠ norm ++ " [:".toList ++ port ++ [']'] := by
    intro port same
    have length := congrArg List.length same
    simp only [List.length_append, List.length_singleton] at length
    omega
  have kept : ∀ port, spans 1 5 Char.isDigit port = true → ':' :: port <:+: norm →
      portMark norm port = norm := by
    intro port digits stated
    rw [portMark, digits, (within port).mpr stated]
    rfl
  have added : ∀ port, spans 1 5 Char.isDigit port = true → ¬ ':' :: port <:+: norm →
      portMark norm port = norm ++ " [:".toList ++ port ++ [']'] := by
    intro port digits absent
    rw [portMark, digits, Bool.eq_false_iff.mpr ((within port).not.mpr absent)]
    rfl
  by_cases stated : ':' :: p <:+: norm
  · rw [kept p first stated]
    by_cases other : ':' :: q <:+: norm
    · rw [kept q second other]
      exact iff_of_false (not_not.mpr rfl) fun differ => differ.2 ⟨stated, other⟩
    · rw [added q second other]
      refine iff_of_true (longer q) ⟨?_, fun both => other both.2⟩
      rintro rfl
      exact other stated
  · rw [added p first stated]
    by_cases other : ':' :: q <:+: norm
    · rw [kept q second other]
      refine iff_of_true (longer p).symm ⟨?_, fun both => stated both.1⟩
      rintro rfl
      exact stated other
    · rw [added q second other, Ne, List.append_left_inj, List.append_right_inj]
      exact ⟨fun differ => ⟨differ, fun both => stated both.1⟩, fun differ => differ.1⟩

/-- Two ports behind one address have keys of their own exactly if what is left of them
differs and the normalised title does not mention both. -/
theorem parityKey_ports_iff (text : Text) (row : ParityRow) (address : String)
    (pathless : ∀ path ∈ row.evidence.get? "path", path.truthy = false) {p q : Nat}
    (first : p ≤ 65535) (second : q ≤ 65535) :
    parityKey text (row.atPort address p) ≠ parityKey text (row.atPort address q) ↔
      seenPort address p ≠ seenPort address q ∧
        ¬ (Mentions text row.title (evidenceStr text row.evidence "host")
          (seenPort address p) ∧
          Mentions text row.title (evidenceStr text row.evidence "host")
            (seenPort address q)) := by
  rw [parityKey_atPort pathless, parityKey_atPort pathless, Ne, Prod.mk.injEq,
    Prod.mk.injEq, and_iff_right rfl, and_iff_right rfl, String.ofList_inj]
  by_cases seen : maxTitleNormalise ≤ address.toList.length + 1
  · have hidden : endpointPort
        ((address ++ ":" ++ toString p).toList.take maxTitleNormalise) =
        endpointPort ((address ++ ":" ++ toString q).toList.take maxTitleNormalise) := by
      by_cases cut : maxTitleNormalise ≤ address.toList.length
      · rw [endpointPort_cut cut p q]
      · rw [endpointPort_eq (Nat.lt_of_not_le cut),
          endpointPort_eq (Nat.lt_of_not_le cut), seenPort_cut seen, seenPort_cut seen]
    refine iff_of_false (not_not.mpr (congrArg _ hidden)) ?_
    rw [seenPort_cut seen, seenPort_cut seen]
    exact fun differ => differ.1 rfl
  · have fits : address.toList.length < maxTitleNormalise := by omega
    have filled : ∀ port, seenPort address port ≠ [] := by
      intro port empty
      have length := congrArg List.length empty
      have digits : 0 < (toString port).toList.length := by
        rw [Nat.toString_eq_repr, Nat.toList_repr]
        exact Nat.length_toDigits_pos
      rw [seenPort, List.length_take, List.length_nil] at length
      omega
    rw [endpointPort_eq fits, endpointPort_eq fits, ← Ne,
      portMark_ne_iff (spans_seenPort first (filled p))
        (spans_seenPort second (filled q)),
      normTitle_infix (seenPort_digits address p),
      normTitle_infix (seenPort_digits address q)]

end Keys

/-! ## Ports that one title hides -/

/-- A finding whose title states one port. -/
def statedRow : ParityRow where
  probeId := "net.tls"
  algorithm := "TLSv1.0"
  title := "TLSv1.0 on db1:8443"
  evidence := Dict.ofList [("host", .str "db1")]

/-- Ports that the title does not mention have keys of their own. -/
theorem statedRow_apart : parityKey asciiText (statedRow.atPort "db1" 443) ≠
    parityKey asciiText (statedRow.atPort "db1" 22) := by
  rw [parityKey_ports_iff asciiText statedRow "db1" (by decide) (by decide) (by decide)]
  refine ⟨by decide +kernel, ?_⟩
  rintro ⟨mentioned, -⟩
  rw [← normTitle_infix (seenPort_digits "db1" 443)] at mentioned
  exact absurd mentioned (by decide +kernel)

/-- The title states neither port, but both begin the one that it
states: the keys are the same. -/
theorem statedRow_merged :
    ¬ States asciiText statedRow.title "84".toList ∧
      ¬ States asciiText statedRow.title "844".toList ∧
      parityKey asciiText (statedRow.atPort "db1" 84) =
        parityKey asciiText (statedRow.atPort "db1" 844) := by
  refine ⟨?_, ?_, ?_⟩
  · rw [States]
    decide +kernel
  · rw [States]
    decide +kernel
  · decide +kernel

end Core
end PqcScan
