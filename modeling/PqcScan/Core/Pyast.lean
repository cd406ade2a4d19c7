import PqcScan.Library.Dict
import PqcScan.Library.Walk
import PqcScan.Python.Str

/-!
# The analyser of Python sources

`pyast.analyze` on a parsed module: the import table, the symbols that names resolve to
and the calls and attributes that are reported.
-/

namespace PqcScan
namespace Core
namespace Pyast

open Library Python

/-- `AstHit.kind`. -/
inductive Kind
  | weakHash
  | rsaKeygen
  | dsaKeygen
  | ecdsaKeygen
  | desCipher
  | rc4Cipher
  | blowfishCipher
  | aesCbc
  | weakTlsProto
  deriving DecidableEq, Repr

/-- `AstHit`. -/
structure AstHit where
  lineno : Nat
  algorithm : List Char
  kind : Kind
  detail : List Char
  deriving DecidableEq, Repr

/-- `ast.alias`. -/
structure Alias where
  name : List Char
  asname : Option (List Char)
  deriving DecidableEq

/-- The syntax tree, as far as the analyser looks at it.  Literals are strings, integers
or something else; `other` stands for all other nodes with the nodes in their fields. -/
inductive Node
  | name (lineno : Nat) (id : List Char)
  | attribute (lineno : Nat) (value : Node) (attr : List Char)
  | call (lineno : Nat) (func : Node) (args keywords : List Node)
  | keyword (arg : Option (List Char)) (value : Node)
  | constStr (value : List Char)
  | constInt (value : Nat)
  | import_ (names : List Alias)
  | importFrom (module : Option (List Char)) (names : List Alias)
  | other (children : List Node)

/-- `ast.iter_child_nodes`. -/
def Node.children : Node → List Node
  | .attribute _ value _ => [value]
  | .call _ func args keywords => func :: (args ++ keywords)
  | .keyword _ value => [value]
  | .other children => children
  | .name .. | .constStr _ | .constInt _ | .import_ _ | .importFrom .. => []

mutual

/-- A node and the nodes below it. -/
def Node.nodes : Node → List Node
  | .attribute lineno value attr => .attribute lineno value attr :: value.nodes
  | .call lineno func args keywords =>
      .call lineno func args keywords ::
        (func.nodes ++ (nodesOf args ++ nodesOf keywords))
  | .keyword arg value => .keyword arg value :: value.nodes
  | .other children => .other children :: nodesOf children
  | .name lineno id => [.name lineno id]
  | .constStr value => [.constStr value]
  | .constInt value => [.constInt value]
  | .import_ names => [.import_ names]
  | .importFrom module names => [.importFrom module names]

/-- The nodes of a list of trees. -/
def nodesOf : List Node → List Node
  | [] => []
  | node :: rest => node.nodes ++ nodesOf rest

end

/-- `ast.walk`. -/
def walk (tree : Node) : List Node := breadthFirst Node.children tree.nodes.length [tree]

/-! ## Imports -/

/-- The names that an import statement binds. -/
def Node.bindings : Node → List (List Char × List Char)
  | .import_ names => names.map fun entry => (entry.asname.getD entry.name, entry.name)
  | .importFrom (some module) names =>
      if module = [] then []
      else
        (names.filter fun entry => entry.name != ['*']).map fun entry =>
          (entry.asname.getD entry.name, module ++ '.' :: entry.name)
  | _ => []

/-- The names that the imports bind. -/
abbrev Symbols : Type := Dict (List Char) (List Char)

/-- `collect_imports`. -/
def collectImports (tree : Node) : Symbols :=
  Dict.ofList ((walk tree).flatMap Node.bindings)

/-- `_resolve`. -/
def resolve (symbols : Symbols) : Node → Option (List Char)
  | .name _ id => some ((symbols.get? id).getD id)
  | .attribute _ value attr => (resolve symbols value).map fun symbol =>
      symbol ++ '.' :: attr
  | _ => none

/-! ## Tables -/

/-- `_WEAK_NEW_HASHES`. -/
def weakNewHashes : List String := ["md5", "sha1", "md4", "md2"]

/-- `_PYCRYPTO_CIPHERS`. -/
def pycryptoCiphers : List (List Char × List Char × Kind) :=
  [("DES".toList, "DES".toList, .desCipher), ("DES3".toList, "3DES".toList, .desCipher),
    ("ARC4".toList, "RC4".toList, .rc4Cipher),
    ("Blowfish".toList, "Blowfish".toList, .blowfishCipher)]

/-- `_HAZMAT_ALGORITHMS`. -/
def hazmatAlgorithms : List (List Char × List Char × Kind) :=
  [("TripleDES".toList, "3DES".toList, .desCipher),
    ("ARC4".toList, "RC4".toList, .rc4Cipher),
    ("Blowfish".toList, "Blowfish".toList, .blowfishCipher)]

/-- `_WEAK_TLS_PROTOCOLS`. -/
def weakTlsProtocols : List (List Char × List Char) :=
  [("PROTOCOL_TLSv1".toList, "TLSv1".toList),
    ("PROTOCOL_TLSv1_1".toList, "TLSv1.1".toList),
    ("PROTOCOL_SSLv3".toList, "SSLv3".toList),
    ("PROTOCOL_SSLv23".toList, "SSLv23".toList)]

/-! ## Visits -/

/-- The hit of an attribute of `ssl`. -/
def protocolHit (lineno : Nat) (attr algo : List Char) : AstHit :=
  ⟨lineno, algo, .weakTlsProto,
    "legacy TLS/SSL protocol constant ssl.".toList ++ attr ++ " (".toList ++
    algo ++ ")".toList⟩

/-- `_visit_attribute`. -/
def visitAttribute (symbols : Symbols) (lineno : Nat) (value : Node) (attr : List Char) :
    List AstHit :=
  match weakTlsProtocols.lookup attr with
  | none => []
  | some algo =>
      match resolve symbols (.attribute lineno value attr) with
      | none => []
      | some canon =>
          -- `_tail(canon, 2)`
          if (canon.splitOn '.').reverse.take 2 = [attr, "ssl".toList] then
            [protocolHit lineno attr algo]
          else []

/-- `_const_str`. -/
def constStr : Node → Option (List Char)
  | .constStr value => some value
  | _ => none

/-- `_const_int`. -/
def constInt : Node → Option Nat
  | .constInt value => some value
  | _ => none

/-- The last keyword argument of a name. -/
def keywordInt (name : List Char) (keywords : List Node) : Option Nat :=
  keywords.foldl (fun bits keyword =>
    match keyword with
    | .keyword arg value => if arg = some name then constInt value else bits
    | _ => bits) none

/-- `_emit_rsa`. -/
def emitRsa (lineno : Nat) (bits : Option Nat) : AstHit :=
  match bits with
  | some bits =>
      ⟨lineno, "RSA-".toList ++ Nat.toDigits 10 bits, .rsaKeygen,
        "RSA key generation, key_size=".toList ++ Nat.toDigits 10 bits⟩
  | none => ⟨lineno, "RSA".toList, .rsaKeygen,
      "RSA key generation (non-literal key_size)".toList⟩

/-- The name at the end of a reference. -/
def Node.ownName : Node → Option (List Char)
  | .attribute _ _ attr => some attr
  | .name _ id => some id
  | _ => none

/-- `_ec_curve`. -/
def ecCurve : List Node → Option (List Char)
  | [] => none
  | .call _ func _ _ :: _ => func.ownName
  | arg :: _ => arg.ownName

/-- `isinstance(arg, ast.Attribute) and arg.attr == "MODE_CBC"`. -/
def Node.isModeCbc : Node → Bool
  | .attribute _ _ attr => attr == "MODE_CBC".toList
  | _ => false

/-- The value of a keyword argument. -/
def Node.keywordValue : Node → Node
  | .keyword _ value => value
  | node => node

/-- `_has_mode_cbc`. -/
def hasModeCbc (args keywords : List Node) : Bool :=
  (args ++ keywords.map Node.keywordValue).any Node.isModeCbc

/-- What `_visit_call` reads from the arguments: a literal name, a key size as a keyword
and as the first argument, a curve and whether the mode is CBC. -/
structure Reads where
  text : Option (List Char)
  keySize : Option Nat
  size : Option Nat
  curve : Option (List Char)
  modeCbc : Bool

/-- What the visitor reads of the arguments of a call. -/
def readsOf (args keywords : List Node) : Reads :=
  ⟨args.head?.bind constStr, keywordInt "key_size".toList keywords,
    args.head?.bind constInt, ecCurve args, hasModeCbc args keywords⟩

/-- The hits of a call of a symbol. -/
def callHits (lineno : Nat) (canon : List Char) (reads : Reads) : List AstHit :=
  let parts := (canon.splitOn '.').reverse
  let last := parts.headD []
  let obj := parts.tail.headD []
  if canon = "hashlib.md5".toList ∨ canon = "hashlib.sha1".toList then
    [⟨lineno, upper last, .weakHash,
      upper last ++ " weak hash via hashlib.".toList ++ last ++ "()".toList⟩]
  else if canon = "hashlib.new".toList then
    match reads.text with
    | none => []
    | some name =>
        if oneOf (lower name) weakNewHashes then
          [⟨lineno, upper name, .weakHash,
            upper name ++ " weak hash via hashlib.new(\"".toList ++ name ++ "\")".toList⟩]
        else []
  else if obj = "rsa".toList ∧ last = "generate_private_key".toList then
    [emitRsa lineno reads.keySize]
  else if obj = "RSA".toList ∧ last = "generate".toList then
    [emitRsa lineno reads.size]
  else if obj = "dsa".toList ∧ last = "generate_private_key".toList then
    [⟨lineno, "DSA".toList, .dsaKeygen, "DSA key generation (cryptography)".toList⟩]
  else if obj = "DSA".toList ∧ last = "generate".toList then
    [⟨lineno, "DSA".toList, .dsaKeygen, "DSA key generation (PyCryptodome)".toList⟩]
  else if obj = "ec".toList ∧ last = "generate_private_key".toList then
    let algo :=
      if reads.curve.getD [] = [] then "EC".toList
      else "EC-".toList ++ reads.curve.getD []
    [⟨lineno, algo, .ecdsaKeygen,
      "classical EC key generation (".toList ++ algo ++ ") — quantum-vulnerable".toList⟩]
  else if last = "new".toList ∧ (pycryptoCiphers.lookup obj).isSome then
    ((pycryptoCiphers.lookup obj).map fun cipher =>
      ⟨lineno, cipher.1, cipher.2,
        cipher.1 ++ " cipher via ".toList ++ obj ++ ".new()".toList⟩).toList
  else if last = "new".toList ∧ obj = "AES".toList then
    if reads.modeCbc then
      [⟨lineno, "AES-CBC".toList, .aesCbc, "AES-CBC mode (prefer AES-GCM)".toList⟩]
    else []
  else if obj = "algorithms".toList ∧ (hazmatAlgorithms.lookup last).isSome then
    ((hazmatAlgorithms.lookup last).map fun cipher =>
      ⟨lineno, cipher.1, cipher.2,
        cipher.1 ++ " cipher via algorithms.".toList ++ last ++ "()".toList⟩).toList
  else if obj = "modes".toList ∧ last = "CBC".toList then
    [⟨lineno, "AES-CBC".toList, .aesCbc,
      "AES-CBC mode via modes.CBC() (prefer AES-GCM)".toList⟩]
  else []

/-- `_visit_call`. -/
def visitCall (symbols : Symbols) (lineno : Nat) (func : Node)
    (args keywords : List Node) :
    List AstHit :=
  match resolve symbols func with
  | none => []
  | some canon => callHits lineno canon (readsOf args keywords)

/-- What `walk` appends at a node. -/
def visit (symbols : Symbols) : Node → List AstHit
  | .call lineno func args keywords => visitCall symbols lineno func args keywords
  | .attribute lineno value attr => visitAttribute symbols lineno value attr
  | _ => []

/-- `analyze` behind `ast.parse`. -/
def analyze (tree : Node) : List AstHit :=
  (walk tree).flatMap (visit (collectImports tree))

end Pyast
end Core
end PqcScan
