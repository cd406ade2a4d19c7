import PqcScan.Daemon.Fleet
import PqcScan.Library.Past
import PqcScan.Library.Transition
import PqcScan.Python.Str
import Mathlib.Data.List.TakeWhile

/-!
# The guard of the site

`create_app`: the checks in front of every handler, and the sessions that `/login` hands
out.  A request carries the path the router goes by and the one of `request.url`, which
the guard goes by.
-/

namespace PqcScan
namespace Daemon
namespace Site

open Library Python

/-- What the guard knows of the site. -/
structure SiteSettings where
  allowedHosts : List (List Char)
  token : Option String
  /-- `str.lower`, one character at a time. -/
  lower : Char → Char
  /-- A netloc that `urlsplit` does not take, for a host in brackets or for characters
  that are separators in disguise. -/
  refuses : List Char → Bool

/-- What the guard reads of a request. -/
structure PageRequest where
  method : String
  /-- The path of the route. -/
  route : String
  /-- `request.url.path`. -/
  path : String
  host : Option (List Char)
  origin : Option (List Char)
  authorization : Option String
  accept : Option (List Char)
  /-- The session cookie. -/
  session : Option String
  /-- The token in the form. -/
  form : String
  deriving DecidableEq

/-- `_host_only`. -/
def hostOnly (settings : SiteSettings) (netloc : List Char) : List Char :=
  let netloc := netloc.map settings.lower
  if netloc.head? = some '[' then beforeFirst ']' netloc ++ [']']
  else beforeFirst ':' netloc

/-- `LOOPBACK_HOSTS`. -/
def loopbackHosts : List (List Char) :=
  ["localhost".toList, "127.0.0.1".toList, "::1".toList, "[::1]".toList]

/-- `hosts`. -/
def hosts (settings : SiteSettings) : List (List Char) :=
  loopbackHosts ++
    (settings.allowedHosts.filter fun name => name != []).map (hostOnly settings)

/-- `_host_allowed`. -/
def hostAllowed (settings : SiteSettings) (request : PageRequest) : Bool :=
  (hosts settings).contains (hostOnly settings (request.host.getD []))

/-- A character of a scheme behind the first one. -/
def isSchemeChar (char : Char) : Bool := char.isAlphanum || ['+', '-', '.'].contains char

/-- `urlsplit(url).netloc`. -/
def netlocOf (settings : SiteSettings) (url : List Char) : Option (List Char) :=
  let url := (url.dropWhile fun char => char.toNat ≤ 0x20).filter fun char =>
    !(['\t', '\r', '\n'].contains char)
  let rest :=
    match cut [':'] url with
    | some (scheme, after) =>
        if scheme.head?.any Char.isAlpha && scheme.all isSchemeChar then after else url
    | none => url
  if rest.take 2 = ['/', '/'] then
    let netloc := (rest.drop 2).takeWhile fun char => !(['/', '?', '#'].contains char)
    if netloc.contains '[' != netloc.contains ']' || settings.refuses netloc then none
    else some netloc
  else some []

/-- `_origin_matches_host`; nothing where `urlsplit` raises. -/
def originMatchesHost (settings : SiteSettings) (request : PageRequest) : Option Bool :=
  let origin := request.origin.getD []
  if origin = [] then some true
  else if origin = "null".toList then some false
  else
    (netlocOf settings origin).map fun netloc =>
      netloc.map settings.lower == (request.host.getD []).map settings.lower

/-- `FLEET_BEARER_PATHS`. -/
def fleetBearerPaths : List String := ["/api/ingest", "/api/agents/enroll"]

/-- The guard asks for no token. -/
def isOpen (request : PageRequest) : Bool :=
  (["/api/health", "/login"] ++ fleetBearerPaths).contains request.path

/-- The methods that change nothing. -/
def reads (request : PageRequest) : Bool :=
  ["GET", "HEAD", "OPTIONS"].contains request.method

/-- The token or a session. -/
def identified (settings : SiteSettings) (sessions : List String)
    (request : PageRequest) : Bool :=
  match bearerToken (request.authorization.getD "") with
  | some presented => presented == settings.token.getD ""
  | none => sessions.contains (request.session.getD "")

/-- What the guard does with a request. -/
inductive Verdict
  /-- `call_next`. -/
  | pass
  | refused (refusal : Refusal)
  /-- To `/login`. -/
  | redirected
  | failed
  deriving DecidableEq, Repr

/-- `"text/html" in accept`. -/
def wantsHtml (request : PageRequest) : Bool :=
  (cut "text/html".toList (request.accept.getD [])).isSome

/-- `_guard`. -/
def guard (settings : SiteSettings) (sessions : List String)
    (request : PageRequest) : Verdict :=
  if hostAllowed settings request = false then .refused ⟨400, "host not allowed"⟩
  else
    match (if reads request then some true else originMatchesHost settings request) with
    | none => .failed
    | some false => .refused ⟨403, "cross-origin request rejected"⟩
    | some true =>
        if settings.token.getD "" != "" && !isOpen request &&
            !identified settings sessions request then
          if wantsHtml request then .redirected else .refused ⟨401, "unauthorized"⟩
        else .pass

/-! ## Sessions -/

/-- The sessions, and the logins that are past the guard. -/
structure Logins where
  sessions : List String
  signing : List PageRequest
  deriving DecidableEq

/-- What may happen to the site. -/
inductive SiteAction
  /-- A request comes to the guard. -/
  | arrive (request : PageRequest)
  /-- `login` runs and draws a session id. -/
  | signIn (request : PageRequest) (sid : String)
  | restart
  deriving DecidableEq

/-- The request asks for a session. -/
def isLogin (request : PageRequest) : Bool :=
  request.method == "POST" && request.route == "/login"

/-- `login` takes the form. -/
def knowsToken (settings : SiteSettings) (request : PageRequest) : Bool :=
  settings.token.getD "" != "" && request.form == settings.token.getD ""

/-- One action; nothing where `login` runs without a request that the guard let pass. -/
def siteStep (settings : SiteSettings) (logins : Logins) : SiteAction → Option Logins
  | .arrive request =>
      some (if guard settings logins.sessions request = .pass ∧
        isLogin request = true then
        { logins with signing := logins.signing ++ [request] }
      else logins)
  | .signIn request sid =>
      if request ∈ logins.signing then
        some {
          sessions :=
            if knowsToken settings request then logins.sessions ++ [sid]
            else logins.sessions
          signing := logins.signing.erase request }
      else none
  | .restart => some ⟨[], []⟩

/-- The action leads from a site to the next. -/
def SiteSteps (settings : SiteSettings) (before : Logins) (action : SiteAction)
    (after : Logins) : Prop :=
  siteStep settings before action = some after

/-! ## Who passes -/

/-- The two checks of a request that changes something: its host is one of the site, and
so is its origin if it has one. -/
def FromSite (settings : SiteSettings) (request : PageRequest) : Prop :=
  hostAllowed settings request = true ∧
    (reads request = true ∨ originMatchesHost settings request = some true)

/-- The last check of the guard. -/
theorem checked_eq_pass_iff (closed known html : Bool) :
    (if closed && !known then
        if html then Verdict.redirected else .refused ⟨401, "unauthorized"⟩
      else .pass) = .pass ↔ closed = false ∨ known = true := by
  cases closed <;> cases known <;> cases html <;> simp

theorem guard_eq_pass_iff (settings : SiteSettings) (sessions : List String)
    (request : PageRequest) :
    guard settings sessions request = .pass ↔
      FromSite settings request ∧
        (settings.token.getD "" = "" ∨ isOpen request = true ∨
          identified settings sessions request = true) := by
  have closed : (settings.token.getD "" != "" && !isOpen request) = false ↔
      settings.token.getD "" = "" ∨ isOpen request = true := by
    rw [Bool.and_eq_false_iff, bne_eq_false_iff_eq, Bool.not_eq_false']
  have last := checked_eq_pass_iff (settings.token.getD "" != "" && !isOpen request)
    (identified settings sessions request) (wantsHtml request)
  rw [closed, or_assoc] at last
  rw [guard, FromSite]
  cases hostAllowed settings request with
  | false => simp
  | true =>
      cases reads request with
      | true => simpa using last
      | false =>
          cases originMatchesHost settings request with
          | none => simp
          | some same =>
              cases same with
              | false => simp
              | true => simpa using last

/-! ## Same origin -/

/-- An origin as a browser writes it: a scheme and an authority that `urlsplit` takes. -/
structure Serialized (settings : SiteSettings) (scheme authority : List Char) : Prop where
  letter : scheme.head?.any Char.isAlpha = true
  schemeChars : scheme.all isSchemeChar = true
  plain : ∀ char ∈ authority, char ∉ ['/', '?', '#', '\t', '\r', '\n']
  brackets : authority.contains '[' = authority.contains ']'
  taken : settings.refuses authority = false

/-- `scheme://authority`. -/
def originText (scheme authority : List Char) : List Char :=
  scheme ++ ':' :: '/' :: '/' :: authority

section Origins

variable {settings : SiteSettings} {scheme authority : List Char}

theorem not_schemeChar {char : Char} (scheme : isSchemeChar char = true) :
    char ∉ ['\t', '\r', '\n', ':'] := by
  intro member
  simp only [List.mem_cons, List.not_mem_nil, or_false] at member
  rcases member with rfl | rfl | rfl | rfl <;> exact absurd scheme (by decide)

theorem visible_of_isAlpha {char : Char} (letter : char.isAlpha = true) :
    ¬ char.toNat ≤ 0x20 := by
  delta Char.isAlpha Char.isUpper Char.isLower at letter
  simp only [Bool.or_eq_true, Bool.and_eq_true, decide_eq_true_eq, ge_iff_le,
    UInt32.le_iff_toNat_le] at letter
  have code : char.toNat = char.val.toNat := rfl
  rcases letter with ⟨above, -⟩ | ⟨above, -⟩
  · have low : 'A'.val.toNat = 65 := rfl
    omega
  · have low : 'a'.val.toNat = 97 := rfl
    omega

theorem Serialized.netlocOf_eq (serialized : Serialized settings scheme authority) :
    netlocOf settings (originText scheme authority) = some authority := by
  obtain ⟨first, rest, rfl⟩ : ∃ first rest, scheme = first :: rest := by
    cases scheme with
    | nil => exact absurd serialized.letter (by simp)
    | cons first rest => exact ⟨first, rest, rfl⟩
  have letter : first.isAlpha = true := serialized.letter
  have inScheme : ∀ char ∈ first :: rest, char ∉ ['\t', '\r', '\n', ':'] :=
    fun char member => not_schemeChar (List.all_eq_true.mp serialized.schemeChars char member)
  have kept : (originText (first :: rest) authority).dropWhile (fun char =>
      char.toNat ≤ 0x20) =
      originText (first :: rest) authority :=
    List.dropWhile_cons_of_neg (by simpa using visible_of_isAlpha letter)
  have whole : (originText (first :: rest) authority).filter
      (fun char => !(['\t', '\r', '\n'].contains char)) =
        originText (first :: rest) authority := by
    refine List.filter_eq_self.mpr fun char member => ?_
    rw [Bool.not_eq_true', ← Bool.not_eq_true, List.contains_iff_mem]
    intro blank
    rcases List.mem_append.mp member with inside | behind
    · exact inScheme char inside (by simp at blank ⊢; tauto)
    · rcases List.mem_cons.mp behind with rfl | behind
      · exact absurd blank (by decide)
      · rcases List.mem_cons.mp behind with rfl | behind
        · exact absurd blank (by decide)
        · rcases List.mem_cons.mp behind with rfl | behind
          · exact absurd blank (by decide)
          · exact serialized.plain char behind (by simp at blank ⊢; tauto)
  have colon : ':' ∉ first :: rest := fun member => inScheme ':' member (by simp)
  have split_ : cut [':'] (originText (first :: rest) authority) =
      some (first :: rest, '/' :: '/' :: authority) := by
    rw [originText, cut_append colon, cut_cons]
    simp
  have ends : authority.takeWhile (fun char => !(['/', '?', '#'].contains char)) =
      authority := by
    refine List.takeWhile_eq_self_iff.mpr fun char member => ?_
    rw [Bool.not_eq_true', ← Bool.not_eq_true, List.contains_iff_mem]
    intro mark
    exact serialized.plain char member (by simp at mark ⊢; tauto)
  simp only [netlocOf, kept, whole, split_, serialized.letter, serialized.schemeChars,
    Bool.and_self, if_true, List.take_succ_cons, List.take_zero, List.drop_succ_cons,
    List.drop_zero, ends, serialized.brackets, serialized.taken, bne_self_eq_false,
    Bool.or_self, Bool.false_eq_true, if_false]

/-- The name of a host does not depend on its case. -/
theorem hostOnly_congr {left right : List Char}
    (same : left.map settings.lower = right.map settings.lower) :
    hostOnly settings left = hostOnly settings right := by
  rw [hostOnly, hostOnly, same]

/-- A browser's request that changes something is taken as one from the site exactly when
its origin is the host it names and that is a host of the site. -/
theorem fromSite_iff (serialized : Serialized settings scheme authority)
    {request : PageRequest} (changes : reads request = false)
    (origin : request.origin = some (originText scheme authority)) :
    FromSite settings request ↔
      authority.map settings.lower = (request.host.getD []).map settings.lower ∧
        hostOnly settings authority ∈ hosts settings := by
  have some_ : originText scheme authority ≠ [] := by simp [originText]
  have notNull : originText scheme authority ≠ "null".toList := by
    intro same
    have colon : ':' ∈ "null".toList := by
      rw [← same]
      simp [originText]
    exact absurd colon (by decide)
  have matches_ : originMatchesHost settings request = some true ↔
      authority.map settings.lower = (request.host.getD []).map settings.lower := by
    rw [originMatchesHost, origin]
    dsimp only [Option.getD_some]
    rw [if_neg some_, if_neg notNull, serialized.netlocOf_eq]
    simp
  rw [FromSite, changes, matches_, hostAllowed, List.contains_iff_mem]
  constructor
  · rintro ⟨allowed, reads_ | same⟩
    · cases reads_
    · exact ⟨same, hostOnly_congr same ▸ allowed⟩
  · rintro ⟨same, allowed⟩
    exact ⟨hostOnly_congr same ▸ allowed, Or.inr same⟩

end Origins

/-! ## Every run -/

section Runs

variable (settings : SiteSettings)

/-- The request came to the guard, and the daemon runs since. -/
def Arrived (request : PageRequest) (actions : List SiteAction) : Prop :=
  Since (· = .restart) (fun _ action => action = .arrive request) actions

/-- The session id was drawn for a login from the site with the token,
and the daemon runs since. -/
def SignedIn (sid : String) (actions : List SiteAction) : Prop :=
  Since (· = .restart) (fun past action => ∃ login, action = .signIn login sid ∧
    isLogin login = true ∧ knowsToken settings login = true ∧ FromSite settings login ∧
      Arrived login past) actions

/-- The logins that are past the guard, and the sessions. -/
structure Remembers (actions : List SiteAction) (logins : Logins) : Prop where
  signing : ∀ request ∈ logins.signing,
    isLogin request = true ∧ FromSite settings request ∧ Arrived request actions
  sessions : ∀ sid, sid ∈ logins.sessions ↔ SignedIn settings sid actions

variable {settings}

theorem Arrived.snoc {request : PageRequest} {actions : List SiteAction}
    {action : SiteAction}
    (arrived : Arrived request actions) (runs : action ≠ .restart) :
    Arrived request (actions ++ [action]) :=
  since_snoc.mpr (Or.inr ⟨runs, arrived⟩)

theorem signedIn_append (sid : String) (actions : List SiteAction) (action : SiteAction) :
    SignedIn settings sid (actions ++ [action]) ↔
      (∃ login, action = .signIn login sid ∧ isLogin login = true ∧
        knowsToken settings login = true ∧ FromSite settings login ∧
        Arrived login actions) ∨
      action ≠ .restart ∧ SignedIn settings sid actions :=
  since_snoc

/-- No other action signs in. -/
theorem signedIn_snoc {sid : String} {actions : List SiteAction} {action : SiteAction}
    (runs : action ≠ .restart) (other : ∀ login, action ≠ .signIn login sid) :
    SignedIn settings sid (actions ++ [action]) ↔ SignedIn settings sid actions := by
  rw [signedIn_append]
  constructor
  · rintro (⟨login, same, -⟩ | ⟨-, since⟩)
    · exact absurd same (other login)
    · exact since
  · exact fun since => Or.inr ⟨runs, since⟩

theorem Remembers.arrive {actions : List SiteAction} {logins : Logins}
    (remembers : Remembers settings actions logins) (request : PageRequest) :
    Remembers settings (actions ++ [.arrive request])
      (if guard settings logins.sessions request = .pass ∧ isLogin request = true then
        { logins with signing := logins.signing ++ [request] }
      else logins) := by
  have runs : SiteAction.arrive request ≠ .restart := SiteAction.noConfusion
  have sessions : ∀ sid, sid ∈ logins.sessions ↔
      SignedIn settings sid (actions ++ [.arrive request]) := by
    intro sid
    rw [remembers.sessions, signedIn_snoc runs fun login => SiteAction.noConfusion]
  have old : ∀ other ∈ logins.signing, isLogin other = true ∧ FromSite settings other ∧
      Arrived other (actions ++ [.arrive request]) := by
    intro other member
    obtain ⟨login, fromSite, arrived⟩ := remembers.signing other member
    exact ⟨login, fromSite, arrived.snoc runs⟩
  split
  · rename_i passed
    refine ⟨fun other member => ?_, sessions⟩
    rcases List.mem_append.mp member with before | new
    · exact old other before
    · rw [List.mem_singleton.mp new]
      exact ⟨passed.2, ((guard_eq_pass_iff settings logins.sessions request).mp
        passed.1).1, since_snoc.mpr (Or.inl rfl)⟩
  · exact ⟨old, sessions⟩

theorem Remembers.signIn {actions : List SiteAction} {logins : Logins}
    (remembers : Remembers settings actions logins) {request : PageRequest} (sid : String)
    (waits : request ∈ logins.signing) :
    Remembers settings (actions ++ [.signIn request sid])
      { sessions :=
          if knowsToken settings request then logins.sessions ++ [sid]
          else logins.sessions
        signing := logins.signing.erase request } := by
  have runs : SiteAction.signIn request sid ≠ .restart := SiteAction.noConfusion
  refine ⟨fun other member => ?_, fun found => ?_⟩
  · obtain ⟨login, fromSite, arrived⟩ :=
      remembers.signing other (List.mem_of_mem_erase member)
    exact ⟨login, fromSite, arrived.snoc runs⟩
  · have grown : found ∈ (if knowsToken settings request then logins.sessions ++ [sid]
        else logins.sessions) ↔
          found = sid ∧ knowsToken settings request = true ∨ found ∈ logins.sessions := by
      cases knowsToken settings request <;> simp [or_comm]
    rw [grown, remembers.sessions, signedIn_append]
    constructor
    · rintro (⟨rfl, knows⟩ | since)
      · obtain ⟨login, fromSite, arrived⟩ := remembers.signing request waits
        exact Or.inl ⟨request, rfl, login, knows, fromSite, arrived⟩
      · exact Or.inr ⟨runs, since⟩
    · rintro (⟨login, same, -, knows, -⟩ | ⟨-, since⟩)
      · cases same
        exact Or.inl ⟨rfl, knows⟩
      · exact Or.inr since

theorem remembers_restart (actions : List SiteAction) :
    Remembers settings (actions ++ [.restart]) ⟨[], []⟩ := by
  refine ⟨fun request member => absurd member List.not_mem_nil, fun sid => ?_⟩
  rw [signedIn_append]
  simp

theorem remembers_run {actions : List SiteAction} {logins : Logins}
    (run : Run (SiteSteps settings) ⟨[], []⟩ actions logins) :
    Remembers settings actions logins := by
  refine run.history
    (Remembers settings) ?_ fun past before action after _ remembers taken => ?_
  · exact ⟨fun request member => absurd member List.not_mem_nil,
      fun sid => ⟨fun member => absurd member List.not_mem_nil,
        fun since => absurd since not_since_nil⟩⟩
  · cases action with
    | arrive request =>
        cases taken
        exact remembers.arrive request
    | signIn request sid =>
        rw [SiteSteps, siteStep, Option.ite_none_right_eq_some] at taken
        obtain ⟨waits, taken⟩ := taken
        cases taken
        exact remembers.signIn sid waits
    | restart =>
        cases taken
        exact remembers_restart past

/-- Who gets past the guard, at any point of any run: a request of the site, and where the
guard asks for a token one that has it or a session id, which only a login of the site
with the token was given, and not before the last restart. -/
theorem guard_passes_iff {actions : List SiteAction} {logins : Logins}
    (run : Run (SiteSteps settings) ⟨[], []⟩ actions logins) (request : PageRequest) :
    guard settings logins.sessions request = .pass ↔
      FromSite settings request ∧
        (settings.token.getD "" = "" ∨ isOpen request = true ∨
          bearerToken (request.authorization.getD "") = some (settings.token.getD "") ∨
          bearerToken (request.authorization.getD "") = none ∧
            SignedIn settings (request.session.getD "") actions) := by
  have known : identified settings logins.sessions request = true ↔
      bearerToken (request.authorization.getD "") = some (settings.token.getD "") ∨
        bearerToken (request.authorization.getD "") = none ∧
          SignedIn settings (request.session.getD "") actions := by
    rw [identified]
    cases bearerToken (request.authorization.getD "") with
    | some presented => simp
    | none => simp [(remembers_run run).sessions]
  rw [guard_eq_pass_iff, known]

end Runs

/-! ## A site with a token -/

/-- ASCII, on the loopback interface. -/
def tokenSettings : SiteSettings := ⟨[], some "secret", Char.toLower, fun _ => false⟩

/-- A request of a browser at the site. -/
def browserRequest (method path form : String) (session : Option String) : PageRequest :=
  ⟨method, path, path, some "localhost:8765".toList,
    some "http://localhost:8765".toList, none, none, session, form⟩

/-- A login with the right token. -/
def signedIn : List SiteAction :=
  [.arrive (browserRequest "POST" "/login" "secret" none),
    .signIn (browserRequest "POST" "/login" "secret" none) "sid"]

/-- A scan is started after the login. -/
theorem guard_passes_iff_signedIn :
    FromSite tokenSettings (browserRequest "POST" "/api/scans" "" (some "sid")) ∧
      SignedIn tokenSettings "sid" signedIn := by
  have executed : signedIn.foldlM (siteStep tokenSettings) ⟨[], []⟩ =
      some ⟨["sid"], []⟩ := by
    decide +kernel
  have passed := (guard_passes_iff (Run.of_foldlM executed)
    (browserRequest "POST" "/api/scans" "" (some "sid"))).mp (by decide +kernel)
  refine ⟨passed.1, ?_⟩
  rcases passed.2 with noToken | open_ | bearer | ⟨-, since⟩
  · exact absurd noToken (by decide)
  · exact absurd open_ (by decide)
  · exact absurd bearer (by decide +kernel)
  · exact since

theorem fromSite_iff_browser :
    FromSite tokenSettings (browserRequest "POST" "/api/scans" "" none) ∧
      ¬ FromSite tokenSettings
        { browserRequest "POST" "/api/scans" "" none with
          origin := some "http://rebound.example".toList } := by
  have own := @fromSite_iff tokenSettings "http".toList "localhost:8765".toList
    ⟨by decide, by decide, by decide, by decide, rfl⟩
    (browserRequest "POST" "/api/scans" "" none) (by decide) (by decide)
  have rebound := @fromSite_iff tokenSettings "http".toList "rebound.example".toList
    ⟨by decide, by decide, by decide, by decide, rfl⟩
    { browserRequest "POST" "/api/scans" "" none with
      origin := some "http://rebound.example".toList } (by decide) (by decide)
  exact ⟨own.mpr (by decide +kernel), fun taken =>
    absurd (rebound.mp taken).1 (by decide +kernel)⟩

end Site
end Daemon
end PqcScan
