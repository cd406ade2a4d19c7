import PqcScan.Core.Names
import PqcScan.Library.Emission
import PqcScan.Probes.Severity

/-!
# Algorithm lists of configuration files

How the probes for nginx, Apache, HAProxy and OpenSSH read the value of a directive that
lists ciphers, protocols or algorithms, from `fs_conf_nginx.py`, `fs_conf_apache.py`,
`fs_conf_haproxy.py` and `_ssh_parser.py`.  The value is the text that the pattern of the
directive captures.
-/

namespace PqcScan
namespace Probes

open Library Python PqcScan.Core

/-- `str.lstrip` of one character. -/
def lstripChar (mark : Char) (text : List Char) : List Char := text.dropWhile (· == mark)

/-- `str.strip` of one character. -/
def stripChar (mark : Char) (text : List Char) : List Char :=
  (lstripChar mark (lstripChar mark text).reverse).reverse

/-- Text whose ends are kept is not trimmed. -/
theorem trim_of_ends {p : Char → Bool} {text : List Char}
    (opens : ∀ char ∈ text.head?, p char = false)
    (closes : ∀ char ∈ text.getLast?, p char = false) :
    ((text.dropWhile p).reverse.dropWhile p).reverse = text := by
  have kept : ∀ text : List Char, (∀ char ∈ text.head?, p char = false) →
      text.dropWhile p = text := by
    intro text opens
    cases text with
    | nil => rfl
    | cons first rest => rw [List.dropWhile_cons_of_neg (by simp [opens first rfl])]
  rw [kept text opens, kept text.reverse (by rwa [List.head?_reverse]),
    List.reverse_reverse]

/-! ## Cipher strings -/

/-- A directive that holds a cipher string, and what its findings say of it. -/
structure CipherDirective where
  probeId : String
  directive : String
  includes : String

/-- `ssl_ciphers` of `FsConfNginx`. -/
def nginxCiphers : CipherDirective where
  probeId := "fs.conf.nginx"
  directive := "ssl_ciphers"
  includes := "nginx ssl_ciphers includes "

/-- `SSLCipherSuite` of `FsConfApache`. -/
def apacheCiphers : CipherDirective where
  probeId := "fs.conf.apache"
  directive := "SSLCipherSuite"
  includes := "Apache SSLCipherSuite includes "

/-- `ssl-default-bind-ciphers` of `FsConfHaproxy`. -/
def haproxyCiphers : CipherDirective where
  probeId := "fs.conf.haproxy"
  directive := "ssl-default-bind-ciphers"
  includes := "haproxy ssl-default-bind-ciphers includes "

/-- `ssl-default-bind-ciphersuites` of `FsConfHaproxy`. -/
def haproxyCiphersuites : CipherDirective where
  probeId := "fs.conf.haproxy"
  directive := "ssl-default-bind-ciphersuites"
  includes := "haproxy ssl-default-bind-ciphersuites includes "

/-- The keywords that name no cipher. -/
def cipherKeywords : List String := ["HIGH", "MEDIUM", "LOW", "ALL", "DEFAULT"]

/-- An element of a cipher string without its operators. -/
def bareToken (raw : List Char) : List Char :=
  lstripChar '-' (lstripChar '+' (lstripChar '!' (strip raw)))

section CipherStrings

variable (tables : CaseTables) (directive : CipherDirective) (path :
  String) (now : DateTime)

/-- The loop over an element of a cipher string; nothing stands for the
`ValueError` of `classify`. -/
def cipherToken (cipherStr raw : List Char) : Option (List Finding) :=
  let token := bareToken raw
  if token = [] ∨ oneOf (tables.upper token) cipherKeywords then some []
  else (tables.classify token).map fun cls =>
    if cls = .sangatTinggi ∨ cls = .tinggi then
      [{ probeId := directive.probeId
         algorithm := String.ofList (tables.normalise token)
         classification := cls
         severity := sevFor cls
         title := directive.includes ++ String.ofList token
         evidence := Dict.ofList [("path", .str path),
           ("directive", .str directive.directive),
           ("list", .str (String.ofList cipherStr))]
         createdAt := now }]
    else []

/-- The cipher string of a value. -/
def cipherString (value : List Char) : List Char :=
  stripChar '\'' (stripChar '"' (strip value))

/-- The elements of a cipher string. -/
def cipherElements (value : List Char) : List (List Char) :=
  (cipherString value).splitOn ':'

/-- The loop over the elements of a directive. -/
def scanCiphers (value : List Char) : List Finding :=
  reported (cipherToken tables directive path now (cipherString value))
    (cipherElements value)

end CipherStrings

/-! ## Protocols -/

/-- The protocols that `_scan_text` looks for. -/
def weakProtocols : List String := ["SSLV2", "SSLV3", "TLSV1", "TLSV1.1"]

/-- A protocol without its operators. -/
def bareProtocol (raw : List Char) : List Char := lstripChar '-' (lstripChar '+' raw)

section Protocols

variable (tables : CaseTables) (path : String) (now : DateTime)

/-- The loop of `FsConfApache._scan_text` over a word of `SSLProtocol`. -/
def protocolToken (raw : List Char) : Option (List Finding) :=
  let token := bareProtocol raw
  some <| if oneOf (tables.upper token) weakProtocols then
      [{ probeId := "fs.conf.apache"
         algorithm := String.ofList (tables.upper token)
         classification := .sangatTinggi
         severity := .crit
         title := "Apache SSLProtocol allows " ++ String.ofList token
         evidence := Dict.ofList [("path", .str path), ("directive", .str "SSLProtocol")]
         remediation := Dict.ofList
           [("snippet", .str "SSLProtocol -all +TLSv1.2 +TLSv1.3")]
         createdAt := now }]
    else []

/-- The words of a directive. -/
def protocolWords (value : List Char) : List (List Char) := splitWords (strip value)

/-- The loop over the words of a directive. -/
def scanProtocols (value : List Char) : List Finding :=
  reported (protocolToken tables path now) (protocolWords value)

end Protocols

/-! ## Algorithm lists of OpenSSH -/

/-- A line of a configuration file. -/
structure ConfigLine where
  probeId : String
  path : String
  fileName : String
  number : Nat
  keyword : String

/-- The operator of an algorithm list. -/
def listOperator (values : List Char) : Option Char :=
  match (strip values).head? with
  | some mark => if mark = '+' ∨ mark = '-' ∨ mark = '^' then some mark else none
  | none => none

/-- The elements of an algorithm list. -/
def listElements (values : List Char) : List (List Char) :=
  (if (listOperator values).isSome then (strip values).drop 1
    else strip values).splitOn ','

section AlgorithmLists

variable (tables : CaseTables) (line : ConfigLine) (now : DateTime)

/-- `SSH_ALG_ALIASES.get(token, normalise(token))`. -/
def sshCanonical (token : List Char) : List Char :=
  (lookupName sshAlgAliases token).getD (tables.normalise token)

/-- The loop of `parse_ssh_config` over an element; nothing stands for the
`ValueError` of `classify`. -/
def algorithmToken (raw : List Char) : Option (List Finding) :=
  let token := strip raw
  if token = [] then some []
  else (tables.classify (sshCanonical tables token)).map fun cls =>
    [{ probeId := line.probeId
       algorithm := String.ofList (sshCanonical tables token)
       classification := cls
       severity := sevFor cls
       title := line.fileName ++ " " ++ line.keyword ++ " contains " ++
         String.ofList token
       evidence := Dict.ofList [("path", .str line.path), ("line", .int line.number),
         ("keyword", .str line.keyword), ("token", .str (String.ofList token))]
       remediation := Dict.ofList [("snippet", .str ("# Review " ++ line.keyword ++
         " list; remove tokens flagged Tinggi/Sangat Tinggi"))]
       createdAt := now }]

/-- The findings of an algorithm list. -/
def scanAlgorithms (values : List Char) : List Finding :=
  reported (algorithmToken tables line now) (listElements values)

end AlgorithmLists

end Probes
end PqcScan
