import HologramLive.Oci.Uploads
import HologramLive.Registry.Paths
namespace HologramLive

-- The one header a login reads, as text when it is visible ASCII.
structure HeaderMap where
  authorization : Option Str
deriving DecidableEq, Repr

structure LoginCrates where
  base64Decode : Str → Option Bytes
  bcryptVerify : Str → Str → Bool

inductive Denied where
  | challenge
  | broken (reason : Str)
deriving DecidableEq, Repr

-- `str::split_at_checked`, on text that is ASCII.
def splitAtChecked (text : Str) (at_ : Nat) : Option (Str × Str) :=
  if text.length < at_ then none else some (text.take at_,text.drop at_)
def eqIgnoreAsciiCase (left right : Str) : Bool := left.map Char.toLower = right.map Char.toLower
def trim (text : Str) : Str := ((text.dropWhile Char.isWhitespace).reverse.dropWhile Char.isWhitespace).reverse

def basic (crates : LoginCrates) (headers : HeaderMap) : Option (Str × Str) := do
  let value ← headers.authorization
  let (scheme,encoded) ← splitAtChecked value 6
  if eqIgnoreAsciiCase scheme "basic ".toList then
    splitOnce ':' (← fromUtf8 (← crates.base64Decode encoded))
  else none

def bearer (headers : HeaderMap) : Option Str := do
  let value ← headers.authorization
  let (scheme,token) ← splitAtChecked value 7
  if eqIgnoreAsciiCase scheme "bearer ".toList then some (trim token) else none

-- The password file as a check meets it: its entries or why they cannot be
-- read, the logins still remembered for this version of it, and the hash an
-- unknown user is checked against.
structure Htpasswd where
  entries : Except Str (List (Str × Str))
  remembers : Str → Str → Bool
  dummy : Str

variable (crates : LoginCrates)

def Htpasswd.check (file : Htpasswd) (user password : Str) : Except Denied Str :=
  match file.entries with
  | .error reason => .error (.broken reason)
  | .ok entries =>
    if file.remembers user password then .ok user
    else
      let known := (entries.find? fun entry => entry.1 = user).map (·.2)
      if crates.bcryptVerify password (known.getD file.dummy) && known.isSome then .ok user else .error .challenge

def Htpasswd.authenticate (file : Htpasswd) (headers : HeaderMap) : Except Denied Str :=
  match basic crates headers with
  | none => .error .challenge
  | some (user,password) => file.check crates user password

structure Access where
  kind : Str
  name : Str
  actions : List Str
deriving DecidableEq, Repr

structure Claims where
  iss : Str
  sub : Str
  aud : Str
  exp : Nat
  nbf : Nat
  iat : Nat
  jti : Str
  access : List Access
deriving DecidableEq, Repr

structure Validation where
  audience : Str
  issuer : Str
  leeway : Nat
deriving DecidableEq, Repr

-- A key is what the token crate does with it: at a time, under a validation, a
-- text is a token with these claims or it is refused.
abbrev DecodingKey := Nat → Validation → Str → Option Claims

structure JwtHeader where
  alg : Str
  kid : Option Str
deriving DecidableEq, Repr

abbrev EncodingKey := JwtHeader → Claims → Except Str Str

structure LocalIssuer where
  encoding : EncodingKey
  kid : Str
  issuer : Str
  service : Str
  passwords : Option Htpasswd

structure TokenAuth where
  service : Str
  issuer : Str
  keys : List DecodingKey
  issuerSide : Option LocalIssuer

def lifetimeSeconds : Nat := 15 * 60

def repositoryKind : Str := "repository".toList
def pullAction : Str := "pull".toList
def pushAction : Str := "push".toList
def deleteAction : Str := "delete".toList
def anyAction : Str := "*".toList

def parseScope (scope : Str) (authenticated : Bool) : Option Access :=
  match scope.splitOn ':' with
  | kind :: name :: rest =>
    let wanted := ((rest.head?.getD []).splitOn ',').filter fun action => !action.isEmpty
    let allowed := if authenticated then wanted
      else wanted.filter fun action => action = pullAction && kind = repositoryKind
    if allowed.isEmpty then none else some ⟨kind,name,allowed⟩
  | _ => none

variable (issuer : LocalIssuer)

def LocalIssuer.caller (headers : HeaderMap) : Except Denied (Str × Bool) :=
  match basic crates headers with
  | some (user,password) => match issuer.passwords with
    | some file => (file.check crates user password).map fun name => (name,true)
    | none => .error .challenge
  | none => .ok ("anonymous".toList,false)

def accessOf (scopes : Str) (authenticated : Bool) : List Access :=
  ((scopes.splitOn ' ').filter fun scope => !scope.isEmpty).filterMap fun scope => parseScope scope authenticated

def LocalIssuer.claimsFor (subject : Str) (access : List Access) (now : Nat) : Claims where
  iss := issuer.issuer
  sub := subject
  aud := issuer.service
  exp := now + lifetimeSeconds
  nbf := now - 5
  iat := now
  jti := decimal now ++ '-' :: issuer.kid
  access := access

def LocalIssuer.issue (headers : HeaderMap) (scopes : Str) (now : Nat) : Except Denied Str :=
  match issuer.caller crates headers with
  | .error denied => .error denied
  | .ok (subject,authenticated) =>
    (issuer.encoding ⟨"ES256".toList,some issuer.kid⟩ (issuer.claimsFor subject (accessOf scopes authenticated) now)).mapError
      fun error => .broken ("sign a token: ".toList ++ error)

def requiredFor (method : Method) (repo : Str) : List (Str × Str × Str) :=
  match method with
  | .get | .head => [(repositoryKind,repo,pullAction)]
  | .post | .put | .patch => [(repositoryKind,repo,pullAction),(repositoryKind,repo,pushAction)]
  | .delete => [(repositoryKind,repo,deleteAction)]
  | .options | .connect | .trace | .extension _ => []

def required (method : Method) (scope : Scope) (query : Option Str) : List (Str × Str × Str) :=
  match scope with
  | .base => []
  | .catalog => [("registry".toList,"catalog".toList,anyAction)]
  | .repository repo => requiredFor method repo ++
    match (queryParam query "from".toList).filter fun source => !source.isEmpty with
    | some source => [(repositoryKind,source,pullAction)]
    | none => []

namespace TokenAuth

def verify (auth : TokenAuth) (token : Str) (now : Nat) : Option Claims :=
  auth.keys.findSome? fun key => key now ⟨auth.service,auth.issuer,30⟩ token

def granted (claims : Claims) : List (Str × Str × Str) :=
  claims.access.flatMap fun access => access.actions.map fun action => (access.kind,access.name,action)

def covered (claims : Claims) (wanted : List (Str × Str × Str)) : Bool :=
  wanted.all fun need => (granted claims).contains need || (granted claims).contains (need.1,need.2.1,anyAction)

def authenticate (auth : TokenAuth) (headers : HeaderMap) (method : Method) (scope : Scope) (query : Option Str)
    (now : Nat) : Except Denied Str :=
  match bearer headers with
  | none => .error .challenge
  | some token => match auth.verify token now with
    | none => .error .challenge
    | some claims => if covered claims (required method scope query) then .ok claims.sub else .error .challenge

end TokenAuth

inductive Login where
  | password (file : Htpasswd)
  | token (auth : TokenAuth)

def Login.authenticate (crates : LoginCrates) (login : Login) (headers : HeaderMap) (method : Method) (scope : Scope)
    (query : Option Str) (now : Nat) : Except Denied Str :=
  match login with
  | .password file => file.authenticate crates headers
  | .token auth => auth.authenticate headers method scope query now

end HologramLive

namespace HologramLive
open Fallible

structure Settings where
  deleteEnabled : Bool
  readOnly : Bool
  minFreeBytes : Option Nat
deriving DecidableEq, Repr

-- What the registry serves from as one request meets it. No login is an
-- anonymous registry; `failing` is a health check that fails.
structure Registry where
  store : OciStore
  settings : Settings
  login : Option Login
  failing : Bool
  freeSpace : Except Str Nat

structure Request where
  method : Method
  path : Str
  query : Option Str
  headers : HeaderMap

inductive Call where
  | base
  | options (allow : Str)
  | blobGet (repo : RepoName) (digest : Digest) (head : Bool)
  | manifestGet (repo : RepoName) (reference : Reference) (head : Bool)
  | manifestPut (repo : RepoName) (reference : Reference)
  | uploadStart (repo : RepoName)
  | uploadStatus (repo : RepoName) (id : UploadId)
  | uploadPatch (repo : RepoName) (id : UploadId)
  | uploadPut (repo : RepoName) (id : UploadId)
  | uploadCancel (repo : RepoName) (id : UploadId)
  | catalog
  | tags (repo : RepoName)
  | referrers (repo : RepoName) (digest : Digest)
  | manifestDelete (repo : RepoName) (reference : Reference)
  | blobDelete (repo : RepoName) (digest : Digest)
deriving DecidableEq, Repr

def readOnlyAllow (allow : Str) : Str :=
  if allow ∈ [allowManifest,allowBlob,allowUpload,allowPost] then "GET, HEAD".toList else allow

-- Read-only mode leaves the write methods out. A write to an upload asks for
-- the upload first.
def readOnly (store : OciStore) (route : Route) : Except OciError Route :=
  let refused : OciError := .wrongMethod "GET, HEAD".toList
  match route with
  | .options allow => .ok (.options (readOnlyAllow allow))
  | .manifest _ _ .put | .manifest _ _ .delete | .blob _ _ .delete | .uploadStart _ => .error refused
  | .upload _ id .patch | .upload _ id .put | .upload _ id .delete => match store.uploadStatus id with
    | .ok _ => .error refused
    | .error _ => .error .uploadUnknown
  | other => .ok other

def writes : Route → Bool
  | .uploadStart _ | .upload _ _ .patch | .upload _ _ .put | .manifest _ _ .put => true
  | _ => false

def underFloor (free floor : Nat) : OciError :=
  (OciError.new .denied).withDetail (.string ("the volume has ".toList ++ decimal free ++
    " bytes free, under the ".toList ++ decimal floor ++ " this registry keeps in reserve".toList))

def refuseFull (registry : Registry) (route : Route) : Except OciError Unit :=
  match registry.settings.minFreeBytes with
  | none => .ok ()
  | some floor =>
    if writes route then match registry.freeSpace with
      | .error _ => .error .internal
      | .ok free => if free < floor then .error (underFloor free floor) else .ok ()
    else .ok ()

def dispatch (settings : Settings) (route : Route) : Except OciError Call :=
  match route with
  | .base => .ok .base
  | .options allow => .ok (.options allow)
  | .blob repo digest .get => .ok (.blobGet repo digest false)
  | .blob repo digest .head => .ok (.blobGet repo digest true)
  | .manifest repo reference .get => .ok (.manifestGet repo reference false)
  | .manifest repo reference .head => .ok (.manifestGet repo reference true)
  | .manifest repo reference .put => .ok (.manifestPut repo reference)
  | .uploadStart repo => .ok (.uploadStart repo)
  | .upload repo id .status => .ok (.uploadStatus repo id)
  | .upload repo id .patch => .ok (.uploadPatch repo id)
  | .upload repo id .put => .ok (.uploadPut repo id)
  | .upload repo id .delete => .ok (.uploadCancel repo id)
  | .catalog => .ok .catalog
  | .tagsList repo => .ok (.tags repo)
  | .referrers repo digest => .ok (.referrers repo digest)
  | .manifest repo reference .delete =>
    if settings.deleteEnabled then .ok (.manifestDelete repo reference) else .error (.new .unsupported)
  | .blob repo digest .delete =>
    if settings.deleteEnabled then .ok (.blobDelete repo digest) else .error (.new .unsupported)

def serve (registry : Registry) (route : Route) : Except OciError Call := do
  let route ← (if registry.settings.readOnly then readOnly registry.store route else .ok route)
  refuseFull registry route
  dispatch registry.settings route

inductive Handled where
  | unavailable (error : OciError)
  | refused (denied : Denied) (scope : Scope)
  | served (route : Route) (principal : Str) (answer : Except OciError Call)
  | failed (error : OciError)

def restOf (path : Str) : Str := (stripPrefix "/v2/".toList path).getD []

def routeOf (method : Method) (path : Str) : Except OciError Route :=
  match decode (restOf path) with
  | none => .error .unknownRoute
  | some rest => parse method rest

def routed : Except OciError Route → Bool
  | .ok _ => true
  | .error error => error.code.isSome || error.status ≠ 404

def scopeOf (method : Method) (path : Str) : Option Scope :=
  ((decode (restOf path)).bind Scope.of).filter fun _ => routed (routeOf method path)

def handle (crates : LoginCrates) (registry : Registry) (request : Request) (now : Nat) : Handled :=
  if registry.failing then
    .unavailable ((OciError.new .unavailable).withDetail
      (.string "health check failed: please see /debug/health".toList))
  else
    let entry : Except (Denied × Scope) Str := match registry.login,scopeOf request.method request.path with
      | some login,some scope =>
        (login.authenticate crates request.headers request.method scope request.query now).mapError fun denied =>
          (denied,scope)
      | _,_ => .ok "anonymous".toList
    match entry,routeOf request.method request.path with
    | .error (denied,scope),_ => .refused denied scope
    | .ok principal,.ok route => .served route principal (serve registry route)
    | .ok _,.error error => .failed error

def Handled.reached : Handled → Option (Route × Str × Call)
  | .served route principal (.ok call) => some (route,principal,call)
  | _ => none

variable {route : Route} {call : Call}

theorem Handled.served_of_reached {handled : Handled}
    (reached : handled.reached = some (route,principal,call)) : handled = .served route principal (.ok call) := by
  unfold Handled.reached at reached
  split at reached
  · cases reached; rfl
  · cases reached

def Call.target : Call → Option Target
  | .base => some .base
  | .catalog => some .catalog
  | .options _ => none
  | .blobGet repo _ _ | .manifestGet repo _ _ | .manifestPut repo _ | .uploadStart repo | .uploadStatus repo _
  | .uploadPatch repo _ | .uploadPut repo _ | .uploadCancel repo _ | .tags repo | .referrers repo _
  | .manifestDelete repo _ | .blobDelete repo _ => some (.repository repo)

theorem readOnly_target (allowed : readOnly store route = .ok kept) : kept.target = route.target := by
  unfold readOnly at allowed
  split at allowed
  any_goals cases allowed
  · rfl
  any_goals (split at allowed <;> cases allowed)
  · rfl

theorem dispatch_target (dispatched : dispatch settings route = .ok call) : call.target = route.target := by
  unfold dispatch at dispatched
  split at dispatched
  case h_16 | h_17 =>
    split at dispatched
    · cases dispatched; rfl
    · cases dispatched
  all_goals cases dispatched; rfl

theorem serve_target (answered : serve registry route = .ok call) : call.target = route.target := by
  obtain ⟨kept,gated,answered⟩ := bind_ok answered
  obtain ⟨-,-,dispatched⟩ := bind_ok answered
  rw [dispatch_target dispatched]
  split at gated
  · exact readOnly_target gated
  · cases gated; rfl

theorem scopeOf_routed (found : routeOf method path = .ok route) :
    ∃ target : Target,scopeOf method path = some target.scope ∧ ∀ own ∈ route.target,own = target := by
  unfold scopeOf
  rw [found]
  unfold routeOf at found
  split at found
  · cases found
  · rename_i rest decoded
    obtain ⟨-,target,scope,acts⟩ := parse_scope found
    exact ⟨target,by rw [decoded]; simp [scope,routed],acts⟩

theorem routeOf_taken (found : routeOf method path = .ok route) : route.TakenBy method := by
  unfold routeOf at found
  split at found
  · cases found
  · exact (parse_scope found).1

theorem handle_served (served : handle crates registry request now = .served route principal answer) :
    routeOf request.method request.path = .ok route ∧ answer = serve registry route ∧
      match registry.login with
      | none => principal = "anonymous".toList
      | some login => ∀ scope,scopeOf request.method request.path = some scope →
          login.authenticate crates request.headers request.method scope request.query now = .ok principal := by
  unfold handle at served
  split at served
  · cases served
  · dsimp only at served
    split at served
    · cases served
    · rename_i name made admitted found
      cases served
      refine ⟨found,rfl,?_⟩
      cases configured : registry.login with
      | none => rw [configured] at admitted; exact (Except.ok.inj admitted).symm
      | some login =>
        intro scope asked; rw [configured,asked] at admitted
        exact mapError_ok admitted
    · cases served

-- A registry that issues its own tokens: the token an anonymous client gets when
-- it asks to pull and push in one repository, and one that may push.
namespace Sample

def noCrates : LoginCrates := ⟨fun _ => none,fun _ _ => false⟩
def pulls : Claims where
  iss := "live".toList
  sub := "anonymous".toList
  aud := "registry".toList
  exp := 900
  nbf := 0
  iat := 0
  jti := "0-k".toList
  access := [⟨repositoryKind,"app".toList,[pullAction]⟩]
def signed : Str := "eyJhbGciOiJFUzI1NiJ9".toList
def pushes : Claims := {pulls with
  sub := "docker".toList
  access := [⟨repositoryKind,"app".toList,[pullAction,pushAction]⟩,⟨repositoryKind,"base".toList,[pullAction]⟩]}
def pushSigned : Str := "eyJraWQiOiJrIn0".toList
def issuer : LocalIssuer where
  encoding := fun _ claims => if claims = pulls then .ok signed else .error "unknown claims".toList
  kid := "k".toList
  issuer := "live".toList
  service := "registry".toList
  passwords := none
def tokenAuth : TokenAuth where
  service := "registry".toList
  issuer := "live".toList
  keys := [fun now validation token =>
    let claims := if token = signed then some pulls else if token = pushSigned then some pushes else none
    claims.filter fun claims => validation.audience = claims.aud && validation.issuer = claims.iss &&
      now ≤ claims.exp + validation.leeway]
  issuerSide := some issuer
theorem pulled_legal : repoNameLegal "app".toList = true := by decide
def pulled : RepoName := ⟨"app".toList,pulled_legal⟩
def registry : Registry := ⟨.created,⟨true,false,none⟩,some (.token tokenAuth),false,.ok 0⟩
def bears (token : Str) : HeaderMap := ⟨some ("Bearer ".toList ++ token)⟩
def pullRequest : Request := ⟨.get,"/v2/app/tags/list".toList,none,bears signed⟩

end Sample

-- The route and the scope of one path name one place, and what is served there
-- was authenticated for it: by the login, when one is configured.
theorem authenticated_where_it_acts (crates : LoginCrates) : (∀ method path route,routeOf method path = .ok route →
      ∃ target : Target,scopeOf method path = some target.scope ∧ ∀ own ∈ route.target,own = target) ∧
    ∀ registry request now route principal answer,handle crates registry request now = .served route principal answer →
      ∃ target : Target,(∀ own ∈ route.target,own = target) ∧
        (∀ call,answer = .ok call → ∀ place ∈ call.target,place = target) ∧
        match registry.login with
        | none => principal = "anonymous".toList
        | some login => login.authenticate crates request.headers request.method target.scope request.query now =
            .ok principal := by
  refine ⟨fun method path route found => scopeOf_routed found,?_⟩
  intro registry request now route principal answer served
  obtain ⟨found,answered,admitted⟩ := handle_served served
  obtain ⟨target,scope,acts⟩ := scopeOf_routed found
  refine ⟨target,acts,?_,?_⟩
  · intro call ok place here
    rw [answered] at ok
    rw [serve_target ok] at here
    exact acts place here
  · cases configured : registry.login with
    | none => simpa [configured] using admitted
    | some login => simp only [configured] at admitted; exact admitted _ scope

open Sample

theorem pull_authenticated : ∃ target : Target,target.scope = .repository "app".toList ∧
    (Login.token Sample.tokenAuth).authenticate noCrates (Sample.bears Sample.signed) .get target.scope none 0 =
      .ok "anonymous".toList := by
  have served : handle noCrates Sample.registry pullRequest 0 =
      .served (.tagsList pulled) "anonymous".toList (.ok (.tags pulled)) :=
    Handled.served_of_reached (by decide)
  obtain ⟨target,acts,-,admitted⟩ := (authenticated_where_it_acts noCrates).2 _ _ _ _ _ _ served
  have here := acts _ rfl
  exact ⟨target,by rw [←here]; rfl,admitted⟩

end HologramLive
