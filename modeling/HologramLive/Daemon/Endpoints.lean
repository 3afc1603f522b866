import HologramLive.Cluster.Membership
namespace HologramLive.Endpoints
open Cluster List

def startsWith (start : String) (text : Str) : Bool := start.toList.isPrefixOf text

def plainPrefixes : List String := ["http://127.0.0.1","http://localhost","http://[::1]"]
def updatePrefixes : List String := ["http://127.0.0.1","http://localhost"]

-- A start that is taken for a secure one, whatever follows it.
def securePrefix (plain : List String) (text : Str) : Bool :=
  startsWith "https://" text || plain.any fun start => startsWith start text

def validateEndpoint (endpoint : Str) (isLocal : Bool) : Except LiveError Unit :=
  if securePrefix plainPrefixes endpoint then .ok ()
  else .error (.config ((if isLocal then "local".toList else "remote".toList) ++
    " endpoint must use HTTPS unless it is loopback: ".toList ++ endpoint))

def requireSecureUrl (url : Str) : Except LiveError Unit :=
  if securePrefix updatePrefixes url then .ok ()
  else .error (.config ("update URL must use HTTPS unless it is loopback: ".toList ++ url))

-- The endpoints that `AppConfig::validate` checks.
structure ConfiguredEndpoints where
  localEndpoint : Str
  remoteEndpoint : Option Str
  telemetryEndpoint : Option Str

def validateOptional : Option Str → Except LiveError Unit
  | some endpoint => validateEndpoint endpoint false
  | none => .ok ()
def ConfiguredEndpoints.validate (config : ConfiguredEndpoints) : Except LiveError Unit := do
  validateEndpoint config.localEndpoint true
  validateOptional config.remoteEndpoint
  validateOptional config.telemetryEndpoint

variable (c : Char)

-- How the URL grammar finds a host in what follows `http://`: blanks at the end and
-- line breaks and tabs anywhere are dropped, slashes before the authority skipped;
-- the authority ends at a slash of either kind, a question mark or a hash; the host
-- follows its last at sign and ends at its port.
def blank : Bool := c ≤ ' '
def broken : Bool := c = '\t' || c = '\n' || c = '\r'
def slash : Bool := c = '/' || c = '\\'
def ending : Bool := slash c || c = '?' || c = '#'

def authorityText (rest : Str) : Str :=
  (((rest.rdropWhile blank).filter fun c => !broken c).dropWhile slash).takeWhile fun c => !ending c
def serverText (authority : Str) : Str := (authority.reverse.takeWhile (· ≠ '@')).reverse
def hostText (rest : Str) : Str :=
  match serverText (authorityText rest) with
  | '[' :: inner => '[' :: (inner.takeWhile (· ≠ ']') ++ [']'])
  | server => server.takeWhile (· ≠ ':')

def loopbackNames : List Str := ["127.0.0.1".toList,"localhost".toList,"[::1]".toList]

def LocalHost (host : Str) : Prop := host = "localhost".toList ∨ loopbackAddress host = true ∨ host = "[::1]".toList

-- What is used of the URL grammar, with its reader of hosts.
structure Grammar (crates : ClusterCrates) (hostOf : Str → Option Str) : Prop where
  https : ∀ rest url,crates.parseUrl ("https://".toList ++ rest) = .ok url → url.scheme = "https".toList
  http : ∀ rest url,crates.parseUrl ("http://".toList ++ rest) = .ok url →
    url.scheme = "http".toList ∧ url.hostStr = hostOf (hostText rest)
  names : ∀ name ∈ loopbackNames,hostOf name = some name

-- Where the endpoint is a URL, its bytes are encrypted or stay on the machine.
def Secure (crates : ClusterCrates) (endpoint : Str) : Prop :=
  ∀ url,crates.parseUrl endpoint = .ok url → url.scheme = "https".toList ∨ ∃ host,url.hostStr = some host ∧ LocalHost host
def KeyAddressed (endpoint : Str) : Prop := ∃ rest,endpoint = "iroh:".toList ++ rest

-- A plain URL spells a loopback name where its host stands, or the grammar reads
-- what stands there as one.
def Spelled (crates : ClusterCrates) (hostOf : Str → Option Str) (plain : List String) (endpoint : Str) : Prop :=
  ∀ rest url,endpoint = "http://".toList ++ rest → (plain.any fun start => startsWith start endpoint) = true →
    crates.parseUrl endpoint = .ok url →
      hostText rest ∈ loopbackNames ∨ ∃ host,hostOf (hostText rest) = some host ∧ LocalHost host

section Proofs
variable {crates : ClusterCrates} {hostOf : Str → Option Str} {endpoint : Str} {plain : List String}

theorem startsWith_iff {start : String} : startsWith start text = true ↔ ∃ rest,text = start.toList ++ rest := by
  unfold startsWith
  rw [ isPrefixOf_iff_prefix]
  exact ⟨fun ⟨rest,same⟩ => ⟨rest,same.symm⟩,fun ⟨rest,same⟩ => ⟨rest,same.symm⟩⟩

theorem loopbackNames_local (member : name ∈ loopbackNames) : LocalHost name := by
  simp only [loopbackNames,mem_cons,not_mem_nil,or_false] at member
  rcases member with rfl | rfl | rfl
  · exact .inr (.inl (by decide))
  · exact .inl rfl
  · exact .inr (.inr rfl)

def Plain (plain : List String) : Prop := ∀ start ∈ plain,startsWith "http://" start.toList = true

theorem plain_http (plainly : Plain plain) (starts : (plain.any fun start => startsWith start endpoint) = true) :
    ∃ rest,endpoint = "http://".toList ++ rest := by
  obtain ⟨start,listed,begins⟩ := any_eq_true.mp starts
  obtain ⟨rest,same⟩ := startsWith_iff.mp begins
  obtain ⟨more,shape⟩ := startsWith_iff.mp (plainly start listed)
  exact ⟨more ++ rest,by rw [same,shape,append_assoc]⟩

theorem prefixes_secure (grammar : Grammar crates hostOf) (plainly : Plain plain) :
    (securePrefix plain endpoint = true → Secure crates endpoint) ↔ Spelled crates hostOf plain endpoint := by
  constructor
  · intro secure rest url same starts parsed
    have accepted : securePrefix plain endpoint = true := by rw [securePrefix,starts,Bool.or_true]
    have read := grammar.http rest url (same ▸ parsed)
    rcases secure accepted url parsed with encrypted | ⟨host,found,loopback⟩
    · rw [read.1] at encrypted
      exact absurd encrypted (by decide)
    · exact .inr ⟨host,read.2 ▸ found,loopback⟩
  · intro spelled accepted url parsed
    rcases Bool.or_eq_true_iff.mp accepted with encrypted | starts
    · obtain ⟨rest,rfl⟩ := startsWith_iff.mp encrypted
      exact .inl (grammar.https rest url parsed)
    · obtain ⟨rest,rfl⟩ := plain_http plainly starts
      have read := grammar.http rest url parsed
      right
      rcases spelled rest url rfl starts parsed with named | ⟨host,found,loopback⟩
      · exact ⟨_,read.2.trans (grammar.names _ named),loopbackNames_local named⟩
      · exact ⟨host,read.2.trans found,loopback⟩

theorem validateEndpoint_ok :
    validateEndpoint endpoint isLocal = .ok () ↔ securePrefix plainPrefixes endpoint = true := by
  unfold validateEndpoint
  split <;> simp_all

theorem requireSecureUrl_ok : requireSecureUrl endpoint = .ok () ↔ securePrefix updatePrefixes endpoint = true := by
  unfold requireSecureUrl
  split <;> simp_all

theorem validateClusterEndpoint_secure (accepted : validateClusterEndpoint crates p2p endpoint = .ok ()) :
    KeyAddressed endpoint ∨ Secure crates endpoint := by
  unfold validateClusterEndpoint at accepted
  split at accepted
  · rename_i rest stripped
    left
    unfold stripPrefix at stripped
    split at stripped
    · rename_i starts
      obtain ⟨more,same⟩ := starts
      exact ⟨more,same.symm⟩
    · cases stripped
  · right
    intro url parsed
    rw [parsed] at accepted
    dsimp only at accepted
    split at accepted
    · cases accepted
    · rename_i host found
      split at accepted
      · cases accepted
      · rename_i fits
        by_cases encrypted : url.scheme = "https".toList
        · exact .inl encrypted
        · obtain ⟨_,loopback⟩ : url.scheme = "http".toList ∧ (decide (host = "localhost".toList) || loopbackAddress host) = true := by
            by_contra other
            exact fits ⟨encrypted,other⟩
          refine .inr ⟨host,found,?_⟩
          rcases Bool.or_eq_true_iff.mp loopback with named | address
          · exact .inl (of_decide_eq_true named)
          · exact .inr (.inl address)

end Proofs

theorem endpoints_secure {crates : ClusterCrates} {hostOf : Str → Option Str} (grammar : Grammar crates hostOf)
    (endpoint : Str) (isLocal p2p : Bool) :
    ((validateEndpoint endpoint isLocal = .ok () → Secure crates endpoint) ↔ Spelled crates hostOf plainPrefixes endpoint) ∧
      ((requireSecureUrl endpoint = .ok () → Secure crates endpoint) ↔ Spelled crates hostOf updatePrefixes endpoint) ∧
      (validateClusterEndpoint crates p2p endpoint = .ok () → KeyAddressed endpoint ∨ Secure crates endpoint) := by
  rw [validateEndpoint_ok,requireSecureUrl_ok]
  exact ⟨prefixes_secure grammar (by unfold Plain; decide),prefixes_secure grammar (by unfold Plain; decide),
    validateClusterEndpoint_secure⟩

-- A reader of plain URLs whose hosts are as they are spelled.
namespace Sample

def url (scheme : String) (rest : Str) : Url := ⟨scheme.toList,some (hostText rest),none,['/'],none,none,[],none⟩
def parseUrl (text : Str) : Except Str Url :=
  match stripPrefix "https://".toList text,stripPrefix "http://".toList text with
  | some rest,_ => .ok (url "https" rest)
  | none,some rest => .ok (url "http" rest)
  | none,none => .error "relative URL without a base".toList

def crates : ClusterCrates := ⟨id,fun _ => id,fun _ => id,fun _ => true,fun _ _ _ => false,parseUrl⟩

theorem strip_append (start rest : Str) : stripPrefix start (start ++ rest) = some rest := by
  rw [stripPrefix,if_pos (prefix_append _ _),drop_left]

theorem grammar : Grammar crates some where
  https rest url parsed := by
    have same : parseUrl ("https://".toList ++ rest) = .ok url := parsed
    rw [parseUrl,strip_append] at same
    cases same
    rfl
  http rest url parsed := by
    have same : parseUrl ("http://".toList ++ rest) = .ok url := parsed
    have other : stripPrefix "https://".toList ("http://".toList ++ rest) = none := by
      rw [stripPrefix,if_neg]
      rintro ⟨more,no⟩
      simp at no
    rw [parseUrl,strip_append,other] at same
    cases same
    exact ⟨rfl,rfl⟩
  names _ _ := rfl

def spelled : Str := "http://localhost:8080/v1".toList
def longer : Str := "http://localhost.example.com/v1".toList

end Sample

theorem spelled_secure : Secure Sample.crates Sample.spelled := by
  refine (endpoints_secure Sample.grammar Sample.spelled true false).1.mpr ?_ (by decide)
  intro rest url same _ _
  left
  have rest_ : rest = Sample.spelled.drop 7 := by
    rw [same]
    rfl
  rw [rest_]
  decide

theorem longer_accepted : ¬∀ endpoint : Str,validateEndpoint endpoint false = .ok () → Secure Sample.crates endpoint := by
  intro all
  obtain encrypted | ⟨host,found,loopback⟩ := all Sample.longer (by decide) (Sample.url "http" (Sample.longer.drop 7)) (by rfl)
  · exact absurd encrypted (by decide)
  · have host_ : host = "localhost.example.com".toList := (Option.some.inj found).symm.trans (by decide)
    rw [host_] at loopback
    unfold LocalHost at loopback
    exact absurd loopback (by decide)

end HologramLive.Endpoints
