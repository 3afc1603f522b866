import HologramLive.Oci.Machine
import HologramLive.Registry.Gate
namespace HologramLive

-- A request body as the store meets it: the frames cut from what arrived, and
-- whether the client stayed to the end.
structure Body where
  frames : List Bytes
  whole : Bool

inductive Started where
  | mounted (digest : Digest)
  | created (digest : Digest)
  | accepted (id : UploadId) (received : Nat)
deriving DecidableEq, Repr

def digestParam (query : Option Str) (name : Str) : Except OciError (Option Digest) :=
  match queryParam query name with
  | none => .ok none
  | some text => match Digest.parse text with
    | .ok digest => .ok (some digest)
    | .error _ => .error ((OciError.new .digestInvalid).withDetail (.string "digest parsing failed".toList))

def streamInto (s : OciStore) (id : UploadId) (offset : Nat) (frames : List Bytes) (whole : Bool) (now : Nat) :
    Except OciError Nat × OciStore :=
  match frames with
  | [] => if whole then (.ok offset,s) else (.error (.new .blobUploadInvalid),s)
  | frame :: rest => match s.uploadAppend id offset frame now with
    | (.error error,s') => (.error (.fromStore error .upload),s')
    | (.ok total,s') => streamInto s' id total rest whole now

def finishUpload (crates : Crates) (s : OciStore) (id : UploadId) (claimed : Digest) : Except OciError Started × OciStore :=
  match OciStore.uploadFinish crates s id claimed with
  | (.error error,s') => (.error (.fromStore error .upload),s')
  | (.ok _,s') => (.ok (.created claimed),s')

def mountAsked (query : Option Str) : Option (Digest × RepoName) :=
  match digestParam query "mount".toList with
  | .error _ => none
  | .ok asked => asked.bind fun digest =>
    (queryParam query "from".toList).bind fun name => match RepoName.parse name with
      | .ok source => some (digest,source)
      | .error _ => none

def startSession (crates : Crates) (s : OciStore) (repo : RepoName) (query : Option Str) (body : Body) (fresh : UploadId)
    (now : Nat) : Except OciError Started × OciStore :=
  match digestParam query "digest".toList with
  | .error error => (.error error,s)
  | .ok claimed => match s.uploadBegin repo fresh now,claimed with
    | (id,s'),none => (.ok (.accepted id 0),s')
    | (id,s'),some claimed => match streamInto s' id 0 body.frames body.whole now with
      | (.error error,s'') => (.error error,s'')
      | (.ok _,s'') => finishUpload crates s'' id claimed

def start (crates : Crates) (s : OciStore) (repo : RepoName) (query : Option Str) (body : Body) (fresh : UploadId)
    (now : Nat) : Except OciError Started × OciStore :=
  match mountAsked query with
  | none => startSession crates s repo query body fresh now
  | some (digest,source) => match s.mount repo source digest with
    | (.error error,c) => (.error (.fromStore error .upload),{s with toContent := c})
    | (.ok true,c) => (.ok (.mounted digest),{s with toContent := c})
    | (.ok false,c) => startSession crates {s with toContent := c} repo query body fresh now

variable {s after : OciStore} {crates : Crates}

theorem finishUpload_created {id : UploadId} : finishUpload crates s id claimed ≠ (.ok (.mounted digest),after) := by
  intro ran
  unfold finishUpload at ran
  split at ran <;> cases ran

theorem startSession_opens : startSession crates s repo query body fresh now ≠ (.ok (.mounted digest),after) := by
  intro ran
  unfold startSession at ran
  split at ran
  · cases ran
  · split at ran
    · cases ran
    · split at ran
      · cases ran
      · exact finishUpload_created ran

theorem start_mounted (mounted : start crates s repo query body fresh now = (.ok (.mounted digest),after)) :
    ∃ source : RepoName,queryParam query "from".toList = some source.text ∧ s.LinkedUnder source digest := by
  unfold start at mounted
  split at mounted
  · exact absurd mounted startSession_opens
  · rename_i asked source found
    split at mounted
    · cases mounted
    · rename_i c moved
      cases mounted
      refine ⟨source,?_,?_⟩
      · unfold mountAsked at found; split at found
        · cases found
        · obtain ⟨digest,-,found⟩ := Option.bind_eq_some_iff.mp found
          obtain ⟨name,named,found⟩ := Option.bind_eq_some_iff.mp found
          split at found
          · rename_i source' parsed; cases found
            unfold RepoName.parse at parsed; split at parsed
            · cases parsed; exact named
            · cases parsed
          · cases found
      · unfold Content.mount at moved; split at moved
        · rename_i stat known; exact (Content.blobStat_ok.mp known).1
        all_goals cases moved
    · exact absurd mounted startSession_opens

end HologramLive

namespace HologramLive
open Fallible List

def Route.Reads : Route → Prop
  | .base | .options _ | .tagsList _ | .referrers _ _ => True
  | .manifest _ _ verb => verb = .get ∨ verb = .head
  | .blob _ _ verb => verb = .get ∨ verb = .head
  | .upload _ _ verb => verb = .status
  | .catalog | .uploadStart _ => False

namespace TokenAuth

def Grants (claims : Claims) (kind name action : Str) : Prop :=
  (kind,name,action) ∈ granted claims ∨ (kind,name,anyAction) ∈ granted claims

theorem covered_grants (ok : covered claims wanted = true)
    (need : Str × Str × Str) (here : need ∈ wanted) : Grants claims need.1 need.2.1 need.2.2 := by
  have each := all_eq_true.mp ok need here
  simpa [Grants,contains_iff_mem] using each

theorem mem_granted : (kind,name,action) ∈ granted claims ↔
      ∃ access ∈ claims.access,access.kind = kind ∧ access.name = name ∧ action ∈ access.actions := by
  unfold granted
  constructor
  · intro member
    obtain ⟨access,listed,made⟩ := mem_flatMap.mp member
    obtain ⟨given,acts,shape⟩ := mem_map.mp made
    cases shape
    exact ⟨access,listed,rfl,rfl,acts⟩
  · rintro ⟨access,listed,rfl,rfl,acts⟩
    exact mem_flatMap.mpr ⟨access,listed,mem_map.mpr ⟨action,acts,rfl⟩⟩

theorem authenticate_ok {auth : TokenAuth} {headers : HeaderMap} (admitted : auth.authenticate headers method scope query now = .ok principal) :
    ∃ token claims,bearer headers = some token ∧ auth.verify token now = some claims ∧
      covered claims (required method scope query) = true := by
  unfold authenticate at admitted
  split at admitted
  · cases admitted
  · rename_i token borne
    split at admitted
    · cases admitted
    · rename_i claims verified
      split at admitted
      · rename_i enough; exact ⟨token,claims,borne,verified,enough⟩
      · cases admitted

-- The keys read a token the issuer signed as the claims it was signed for, or
-- not at all.
def ReadsBack (auth : TokenAuth) (issuer : LocalIssuer) : Prop :=
  ∀ header claims token,issuer.encoding header claims = .ok token →
    ∀ key ∈ auth.keys,∀ now validation read,key now validation token = some read → read = claims

theorem verify_issued {auth : TokenAuth} {issuer : LocalIssuer} (honest : auth.ReadsBack issuer)
    {claims read : Claims} (signed : issuer.encoding header claims = .ok token)
    (verified : auth.verify token now = some read) : read = claims := by
  obtain ⟨key,listed,decoded⟩ := exists_of_findSome?_eq_some verified
  exact honest header claims token signed key listed now _ read decoded

end TokenAuth
open TokenAuth

theorem parseScope_anonymous (cut : parseScope scope false = some access) :
    access.kind = repositoryKind ∧ ∀ action ∈ access.actions,action = pullAction := by
  unfold parseScope at cut
  split at cut
  · rename_i kind name rest parts
    simp only [Bool.false_eq_true,if_false] at cut
    split at cut
    · cases cut
    · rename_i filled
      cases cut
      have kept : ∀ action ∈ ((rest.head?.getD []).splitOn ',').filter (fun action => !action.isEmpty) |>.filter
          (fun action => decide (action = pullAction) && decide (kind = repositoryKind)),
          action = pullAction ∧ kind = repositoryKind := by
        intro action member; simpa using (mem_filter.mp member).2
      obtain ⟨action,member⟩ := exists_mem_of_ne_nil _ fun empty => filled (isEmpty_iff.mpr empty)
      exact ⟨(kept action member).2,fun action member => (kept action member).1⟩
  · cases cut

theorem accessOf_anonymous (listed : access ∈ accessOf scopes false) :
    access.kind = repositoryKind ∧ ∀ action ∈ access.actions,action = pullAction := by
  obtain ⟨scope,-,cut⟩ := mem_filterMap.mp listed
  exact parseScope_anonymous cut

def Names (scopes : Str) (name : Str) : Prop := ∃ access ∈ accessOf scopes false,access.name = name

theorem issue_anonymous {issuer : LocalIssuer} (nobody : basic crates asked = none) (issued : issuer.issue crates asked scopes now = .ok token) :
    ∃ header claims,issuer.encoding header claims = .ok token ∧ claims.access = accessOf scopes false := by
  unfold LocalIssuer.issue LocalIssuer.caller at issued
  rw [nobody] at issued
  exact ⟨_,_,mapError_ok issued,rfl⟩

-- An anonymous token grants nothing but pulls on repositories it names.
theorem grants_anonymous (access : claims.access = accessOf scopes false)
    (grants : Grants claims kind name action) : kind = repositoryKind ∧ action = pullAction ∧ Names scopes name := by
  have pulls (given : Str) (member : (kind,name,given) ∈ granted claims) :
      kind = repositoryKind ∧ given = pullAction ∧ Names scopes name := by
    obtain ⟨entry,listed,kinds,names,acts⟩ := mem_granted.mp member
    rw [access] at listed
    obtain ⟨repository,only⟩ := accessOf_anonymous listed
    exact ⟨kinds.symm.trans repository,only given acts,entry,listed,names⟩
  rcases grants with itself | every
  · exact pulls action itself
  · have different : anyAction ≠ pullAction := by decide
    exact absurd (pulls anyAction every).2.1 different

def Route.need : Route → Option Str
  | .base | .catalog | .options _ => none
  | .tagsList _ | .referrers _ _ | .manifest _ _ .get | .manifest _ _ .head | .blob _ _ .get | .blob _ _ .head
  | .upload _ _ .status => some pullAction
  | .uploadStart _ | .upload _ _ .patch | .upload _ _ .put | .manifest _ _ .put => some pushAction
  | .manifest _ _ .delete | .blob _ _ .delete | .upload _ _ .delete => some deleteAction

variable {method : Method} {route : Route}

theorem need_required (taken : route.TakenBy method)
    (needs : route.need = some action) (repo : Str) : (repositoryKind,repo,action) ∈ requiredFor method repo := by
  unfold Route.need at needs
  split at needs
  all_goals cases needs
  all_goals
    cases method
    all_goals simp_all [Route.TakenBy,manifestVerb,blobVerb,uploadVerb,requiredFor]

theorem need_iff : (∃ action,route.need = some action) ↔ ∃ repo,route.target = some (.repository repo) := by
  cases route with
  | manifest repo reference verb => cases verb <;> simp [Route.need,Route.target]
  | blob repo digest verb => cases verb <;> simp [Route.need,Route.target]
  | upload repo id verb => cases verb <;> simp [Route.need,Route.target]
  | _ => simp [Route.need,Route.target]

variable {query : Option Str}

theorem source_required (named : queryParam query "from".toList = some source) (nonempty : source.isEmpty = false) :
    (repositoryKind,source,pullAction) ∈ required method (.repository repo) query := by
  have kept : (queryParam query "from".toList).filter (fun source => !source.isEmpty) = some source := by
    rw [named]
    simp [Option.filter,nonempty]
  simp only [required,kept]
  exact mem_append_right _ (mem_singleton_self _)

theorem reads_of_pull (pulls : ∀ action ∈ route.need,action = pullAction) (listed : route ≠ .catalog) :
    route.Reads := by
  have push : pushAction ≠ pullAction := by decide
  have delete : deleteAction ≠ pullAction := by decide
  cases route with
  | manifest repo reference verb => cases verb <;> simp_all [Route.need,Route.Reads]
  | blob repo digest verb => cases verb <;> simp_all [Route.need,Route.Reads]
  | upload repo id verb => cases verb <;> simp_all [Route.need,Route.Reads]
  | _ => simp_all [Route.need,Route.Reads]

theorem authenticate_anonymous {crates : LoginCrates} {auth : TokenAuth} {issuer : LocalIssuer}
    (honest : auth.ReadsBack issuer) {asked headers : HeaderMap} {scopes token principal : Str} (nobody : basic crates asked = none)
    (issued : issuer.issue crates asked scopes issuedAt = .ok token) (borne : bearer headers = some token)
    (admitted : auth.authenticate headers method scope query now = .ok principal) :
    ∀ need ∈ required method scope query,need.1 = repositoryKind ∧ need.2.2 = pullAction ∧ Names scopes need.2.1 := by
  obtain ⟨shown,claims,borne',verified,enough⟩ := authenticate_ok admitted
  obtain rfl := Option.some.inj (borne.symm.trans borne')
  obtain ⟨header,minted,signed,access⟩ := issue_anonymous nobody issued
  have same := verify_issued honest signed verified
  subst same
  intro need here
  exact grants_anonymous access (covered_grants enough need here)

theorem scope_anonymous (pulls : ∀ need ∈ required method scope query,
      need.1 = repositoryKind ∧ need.2.2 = pullAction ∧ Names scopes need.2.1) :
    scope ≠ .catalog ∧ ∀ name,scope = .repository name → ∀ need ∈ requiredFor method name,
      need.2.2 = pullAction ∧ Names scopes need.2.1 := by
  constructor
  · intro listed
    subst listed
    have different : "registry".toList ≠ repositoryKind := by decide
    exact different (pulls ("registry".toList,"catalog".toList,anyAction) (mem_singleton_self _)).1
  · intro name here need member
    subst here
    exact (pulls need (by simp only [required]; exact mem_append_left _ member)).2

namespace Sample

def scopes : Str := "repository:app:pull,push registry:catalog:*".toList
def mountRequest : Request where
  method := .post
  path := "/v2/app/blobs/uploads/".toList
  query := some ("mount=".toList ++ (name .sha256 layer).asStr ++ "&from=base".toList)
  headers := bears pushSigned

theorem readsBack : tokenAuth.ReadsBack issuer := by
  intro header claims token made key listed now validation read decoded
  obtain ⟨rfl,rfl⟩ : claims = pulls ∧ token = signed := by
    change (if claims = pulls then Except.ok signed else _) = _ at made
    split at made
    · rename_i same; cases made; exact ⟨same,rfl⟩
    · cases made
  obtain rfl := mem_singleton.mp listed
  exact (Option.some.inj (Option.filter_eq_some_iff.mp decoded).1).symm

end Sample

-- A token issued without a password, for whatever scopes: the routes served to
-- its bearer read, in repositories the token names, and never the catalogue.
-- And with any token, a session start that mounts has pull granted on the source.
theorem tokens_confine (crates : LoginCrates) (store : Crates) (registry : Registry) (auth : TokenAuth)
    (login : registry.login = some (.token auth)) :
    (∀ issuer,auth.ReadsBack issuer → ∀ asked scopes issuedAt token,basic crates asked = none →
      issuer.issue crates asked scopes issuedAt = .ok token → ∀ request now,bearer request.headers = some token →
        (∀ scope principal,auth.authenticate request.headers request.method scope request.query now = .ok principal →
          scope ≠ .catalog ∧ ∀ name,scope = .repository name →
            request.method ∉ [.post,.put,.patch,.delete] ∧ (request.method ∈ [.get,.head] → Names scopes name)) ∧
        ∀ route principal answer,handle crates registry request now = .served route principal answer →
          route.Reads ∧ ∀ repo,route.target = some (.repository repo) → Names scopes repo.text) ∧
    ∀ request now repo principal answer,
      handle crates registry request now = .served (.uploadStart repo) principal answer →
      ∀ s body fresh begun digest after,
        start store s repo request.query body fresh begun = (.ok (.mounted digest),after) →
        ∃ (source : RepoName) (token : Str) (claims : Claims),
          queryParam request.query "from".toList = some source.text ∧ s.LinkedUnder source digest ∧
          bearer request.headers = some token ∧ auth.verify token now = some claims ∧
          Grants claims repositoryKind source.text pullAction := by
  constructor
  · intro issuer honest asked scopes issuedAt token nobody issued request now borne
    have confined (scope : Scope) (principal : Str)
        (admitted : auth.authenticate request.headers request.method scope request.query now = .ok principal) :=
      scope_anonymous (authenticate_anonymous honest nobody issued borne admitted)
    constructor
    · intro scope principal admitted
      obtain ⟨uncatalogued,pulls⟩ := confined scope principal admitted
      refine ⟨uncatalogued,fun name here => ?_⟩
      have only := pulls name here
      have push : pushAction ≠ pullAction := by decide
      have delete : deleteAction ≠ pullAction := by decide
      cases asks : request.method <;> simp_all [requiredFor]
    · intro route principal answer served
      obtain ⟨found,-,admitted⟩ := handle_served served
      obtain ⟨target,scope,acts⟩ := scopeOf_routed found
      simp only [login] at admitted
      obtain ⟨uncatalogued,pulls⟩ := confined _ principal (admitted _ scope)
      have taken := routeOf_taken found
      have named (repo : RepoName) (there : route.target = some (.repository repo)) (action : Str)
          (needs : route.need = some action) : action = pullAction ∧ Names scopes repo.text := by
        have same := acts _ there
        exact pulls repo.text (by rw [←same]; rfl) _ (need_required taken needs repo.text)
      have pulled : ∀ action ∈ route.need,action = pullAction := by
        intro action needs
        obtain ⟨repo,there⟩ := need_iff.mp ⟨action,needs⟩
        exact (named repo there action needs).1
      have unlisted : route ≠ .catalog := by
        intro listed
        apply uncatalogued
        rw [←acts .catalog (by rw [listed]; rfl)]
        rfl
      refine ⟨reads_of_pull pulled unlisted,fun repo there => ?_⟩
      obtain ⟨action,needs⟩ := need_iff.mpr ⟨repo,there⟩
      exact (named repo there action needs).2
  · intro request now repo principal answer served s body fresh begun digest after mounted
    obtain ⟨found,-,admitted⟩ := handle_served served
    obtain ⟨target,scope,acts⟩ := scopeOf_routed found
    simp only [login] at admitted
    obtain ⟨token,claims,borne,verified,enough⟩ := authenticate_ok (admitted _ scope)
    obtain ⟨source,named,linked⟩ := start_mounted mounted
    have here : target = .repository repo := (acts _ rfl).symm
    have nonempty : source.text.isEmpty = false := by
      have valid := source.valid
      simp only [repoNameLegal,Bool.and_eq_true,Bool.not_eq_true'] at valid
      exact valid.1.1
    refine ⟨source,token,claims,named,linked,borne,verified,?_⟩
    rw [here] at enough
    exact covered_grants enough _ (source_required named nonempty)

open Sample

theorem mount_needs_source_pull : ((Route.tagsList Sample.app).Reads ∧ Names Sample.scopes Sample.app.text) ∧
      ∃ (source : RepoName) (token : Str) (claims : Claims),
        queryParam mountRequest.query "from".toList = some source.text ∧
        Sample.tokenAuth.verify token 0 = some claims ∧ Grants claims repositoryKind source.text pullAction := by
  obtain ⟨confined,mounts⟩ := tokens_confine noCrates Sample.crates Sample.registry Sample.tokenAuth rfl
  constructor
  · have issued : Sample.issuer.issue noCrates ⟨none⟩ Sample.scopes 0 = .ok Sample.signed := by decide
    have served : handle noCrates Sample.registry pullRequest 0 =
        .served (.tagsList Sample.app) "anonymous".toList (.ok (.tags Sample.app)) :=
      Handled.served_of_reached (by decide)
    obtain ⟨reads,named⟩ := (confined _ readsBack _ _ _ _ rfl issued pullRequest 0 rfl).2 _ _ _ served
    exact ⟨reads,named _ rfl⟩
  · have served : handle noCrates Sample.registry mountRequest 0 =
        .served (.uploadStart Sample.app) "docker".toList (.ok (.uploadStart Sample.app)) :=
      Handled.served_of_reached (by decide)
    have mounted : (start Sample.crates (Sample.after (Sample.push base first Sample.layer .sha256))
        Sample.app mountRequest.query ⟨[],true⟩ second 0).1 =
          .ok (.mounted (Sample.name .sha256 Sample.layer)) := ok_of_toOption (by decide +kernel)
    generalize ran : start Sample.crates _ _ _ _ _ _ = outcome at mounted
    obtain ⟨answer,after⟩ := outcome
    obtain rfl : answer = _ := mounted
    obtain ⟨source,token,claims,asked,-,-,verified,grants⟩ := mounts _ _ _ _ _ served _ _ _ _ _ _ ran
    exact ⟨source,token,claims,asked,verified,grants⟩

end HologramLive
