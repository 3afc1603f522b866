import HologramLive.Cluster.Replication
import HologramLive.Cluster.Requests
namespace HologramLive.Cluster
open Tables Rpc Objects ObjectStore LocalRegistry List
open Objects.ObjectStore (Read)

section Gains
variable {σ : Type} {node : Replicator σ} {peer : Peer} {inventory : List ObjectMetadata} {recipient : Str}

-- A peer whose pages list a fixed inventory, however it splits it: what is left
-- after a cursor, and that the walk of the cursors ends.
structure Serves (node : Replicator σ) (peer : Peer) (inventory : List ObjectMetadata) where
  recipient : Str
  routed : peer.recipient = some recipient
  known : Option Str → Prop
  after : Option Str → List ObjectMetadata
  rank : Option Str → Nat
  first : known none
  whole : after none = inventory
  answers : ∀ limit cursor,0 < limit → known cursor → ∃ page,
    inventoryPage node peer recipient limit cursor = .ok page ∧ page.objects.length ≤ limit ∧
    (page.nextCursor = none → page.objects = after cursor) ∧
    ∀ next,page.nextCursor = some next →
      known (some next) ∧ after cursor = page.objects ++ after (some next) ∧ rank (some next) < rank cursor

-- A valid object within the bound that the peer delivers, by the channel that a
-- round takes.
structure Delivers (blake3 : Blake3) (node : Replicator σ) (peer : Peer) (recipient : Str) (metadata : ObjectMetadata) where
  content : Bytes
  addressed : metadata.id = blake3.id content
  sized : metadata.size = content.length
  bounded : metadata.size ≤ node.maxBytes
  requested : peer.blobChannel = none → ∃ response,
    signedGet peer recipient (objectsPath ++ "/".toList ++ metadata.id) none (some node.maxBytes) = .ok response ∧
    response.isSuccess = true ∧ response.body = content
  streamed : ∀ channel,peer.blobChannel = some channel → ∃ count reader,
    channel.fetch metadata.id = .ok count ∧ channel.reader metadata.id = .ok reader ∧
    ObjectStore.streamed [] 0 reader = .ok (content,saturated content.length)

-- A streaming put that does what the put of the whole bytes does.
def Streams (node : Replicator σ) : Prop := ∀ putObjectReader,node.localRegistry = some putObjectReader →
  ∀ registry now kind mediaType filename reader bytes,ObjectStore.streamed [] 0 reader = .ok (bytes,saturated bytes.length) →
    putObjectReader registry now kind mediaType filename reader =
      node.registry.putObject registry now kind mediaType filename bytes

theorem readToEnd_streamed
    (read : ObjectStore.streamed got size reader = .ok (bytes,total)) (short : bytes.length < bound) :
    readToEnd bound got reader = .ok bytes := by
  induction reader generalizing got size with
  | nil => cases read; rfl
  | cons call rest ih =>
    cases call with
    | interrupted => exact ih read
    | failed message => cases read
    | bytes chunk =>
      cases chunk with
      | nil => cases read; rfl
      | cons b chunk =>
        have later : ObjectStore.streamed (got ++ b :: chunk) (saturatingAdd size (b :: chunk).length) rest = .ok (bytes,total) := read
        have grown := streamed_grows later
        have small : ¬ bound ≤ (got ++ b :: chunk).length := by omega
        rw [readToEnd,if_neg small]
        · exact ih later
        · exact cons_ne_nil b chunk

section Steps
variable {blake3 : Blake3} {collects : Collects blake3 node.registry} {now : Moment} {registry : σ}
  {metadata : ObjectMetadata}

-- What a node holds after it tried some ids: those it held, and those of the ids
-- under which no other bytes stand.
structure Gained (collects : Collects blake3 node.registry) (ids : List Str) (before after : σ) : Prop where
  held : ∀ id,collects.held after id ↔ collects.held before id ∨ id ∈ ids ∧ collects.intact before id
  intact : ∀ id,collects.intact after id ↔ collects.intact before id

theorem Gained.refl (registry : σ) : Gained collects [] registry registry where
  held id := by simp
  intact id := Iff.rfl

theorem Gained.trans (left : Gained collects first s t)
    (right : Gained collects second t u) : Gained collects (first ++ second) s u where
  held id := by
    rw [right.held,left.held,left.intact,mem_append]
    tauto
  intact id := (right.intact id).trans (left.intact id)

theorem Gained.present {id : Str} (held : collects.held registry id) :
    Gained collects [id] registry (node.registry.getObject registry now id).2 where
  held other := by
    rw [collects.get_held,mem_singleton]
    constructor
    · exact .inl
    · rintro (there | ⟨rfl,-⟩)
      · exact there
      · exact held
  intact other := collects.get_intact _ _ _ _

theorem Gained.put {id kind mediaType : Str} : Gained collects [blake3.id bytes] registry
      (node.registry.putObject (node.registry.getObject registry now id).2 now kind mediaType filename bytes).2 where
  held other := by
    rw [collects.put_held,collects.get_held,collects.get_intact,mem_singleton]
  intact other := by rw [collects.put_intact,collects.get_intact]

theorem checkStored_ok (same : stored.id = expected) :
    checkStored expected (.ok stored,registry) = (.ok true,registry) := by
  unfold checkStored
  simp [same]

theorem checkStored_put (collects : Collects blake3 node.registry) {id : Str} (addressed : id = blake3.id bytes) :
    checkStored id (node.registry.putObject registry now kind mediaType filename bytes) =
      (.ok true,(node.registry.putObject registry now kind mediaType filename bytes).2) := by
  obtain ⟨stored,put,same⟩ := collects.put_id registry now kind mediaType filename bytes
  have whole : node.registry.putObject registry now kind mediaType filename bytes =
      (.ok stored,(node.registry.putObject registry now kind mediaType filename bytes).2) := Prod.ext put rfl
  rw [whole]
  exact checkStored_ok (same.trans addressed.symm)

theorem replicateObject_gains (collects : Collects blake3 node.registry) (streams : Streams node) (now : Moment) (registry : σ)
    (delivers : Delivers blake3 node peer recipient metadata) :
    ∃ stored after,replicateObject node peer recipient now registry metadata = (.ok stored,after) ∧
      Gained collects [metadata.id] registry after := by
  unfold replicateObject
  have small : delivers.content.length ≤ node.maxBytes := by rw [←delivers.sized]; exact delivers.bounded
  cases got : node.registry.getObject registry now metadata.id with
  | mk answer left =>
    have leaves : left = (node.registry.getObject registry now metadata.id).2 := by rw [got]
    cases answer with
    | ok content =>
      have held := (collects.get_ok registry now metadata.id).mp ⟨content,by rw [got]⟩
      exact ⟨false,left,rfl,leaves ▸ Gained.present held⟩
    | error e =>
      dsimp only
      have gained : ∀ kind mediaType filename,Gained collects [metadata.id] registry
          (node.registry.putObject left now kind mediaType filename delivers.content).2 := fun kind mediaType filename => by
        rw [leaves,delivers.addressed]; exact Gained.put
      cases offered : peer.blobChannel with
      | some channel =>
        obtain ⟨count,reader,fetched,opened,read⟩ := delivers.streamed channel offered
        refine ⟨true,_,?_,gained metadata.kind metadata.mediaType metadata.filename⟩
        simp only [fetchAndImportObject,fetched,opened]
        have imported : importReader node now left metadata reader =
            node.registry.putObject left now metadata.kind metadata.mediaType metadata.filename delivers.content := by
          unfold importReader
          cases direct : node.localRegistry with
          | some putObjectReader => exact streams putObjectReader direct _ _ _ _ _ _ _ read
          | none => simp only [readToEnd_streamed read (Nat.lt_succ_of_le small),Nat.not_lt.mpr small,if_false]
        rw [imported]; exact checkStored_put collects delivers.addressed
      | none =>
        obtain ⟨response,answered,success,body⟩ := delivers.requested offered
        refine ⟨true,_,?_,gained metadata.kind ((response.header "content-type".toList).getD "application/octet-stream".toList)
          (response.header "x-hologram-object-filename".toList)⟩
        simp only [fetchObject,answered,success,Bool.not_true,Bool.false_eq_true,if_false,body,Nat.not_lt.mpr small]
        exact checkStored_put collects delivers.addressed

theorem replicateEntry_gains (collects : Collects blake3 node.registry) (streams : Streams node) (clock : Nat → Moment)
    (round : Round σ) (delivers : Delivers blake3 node peer recipient metadata) :
    ∃ after,replicateEntry node peer clock recipient round metadata = (after,none) ∧
      after.transferred = round.transferred+1 ∧ Gained collects [metadata.id] round.registry after.registry := by
  obtain ⟨stored,registry,ran,gained⟩ := replicateObject_gains collects streams (clock (round.transferred+1))
    round.registry delivers
  unfold replicateEntry
  simp only [Nat.not_lt.mpr delivers.bounded,if_false,ran]
  cases stored with
  | true => exact ⟨_,rfl,rfl,gained⟩
  | false => exact ⟨_,rfl,rfl,gained⟩

theorem replicateEntries_gains (collects : Collects blake3 node.registry) (streams : Streams node) (clock : Nat → Moment)
    (round : Round σ) (delivers : ∀ metadata ∈ entries,Nonempty (Delivers blake3 node peer recipient metadata)) :
    ∃ after,replicateEntries node peer clock recipient round entries = (after,none) ∧
      after.transferred = round.transferred+entries.length ∧
      Gained collects (entries.map (·.id)) round.registry after.registry := by
  induction entries generalizing round with
  | nil => exact ⟨round,rfl,rfl,Gained.refl _⟩
  | cons metadata rest ih =>
    obtain ⟨honest⟩ := delivers metadata mem_cons_self
    obtain ⟨next,ran,counted,gained⟩ := replicateEntry_gains collects streams clock round honest
    obtain ⟨after,later,summed,more⟩ := ih next fun other among => delivers other (mem_cons_of_mem _ among)
    refine ⟨after,?_,?_,gained.trans more⟩
    · rw [replicateEntries,ran]
      exact later
    · rw [summed,counted,length_cons]
      omega

-- From a cursor on, a round tries as many entries as its cap leaves, whatever the
-- pages they come in.
theorem replicatePages_gains (collects : Collects blake3 node.registry) (streams : Streams node)
    (serves : Serves node peer inventory)
    (delivers : ∀ metadata ∈ inventory,Nonempty (Delivers blake3 node peer serves.recipient metadata))
    (clock : Nat → Moment) (round : Round σ) (known : serves.known cursor)
    (within : ∀ metadata ∈ serves.after cursor,metadata ∈ inventory) (enough : serves.rank cursor < pages) :
    ∃ outcome after,replicatePages node peer clock serves.recipient pages cursor round = some (.ok outcome,after) ∧
      Gained collects (((serves.after cursor).take (node.maxObjects-round.transferred)).map (·.id)) round.registry after := by
  induction pages generalizing cursor round with
  | zero => omega
  | succ pages ih =>
    unfold replicatePages
    by_cases full : node.maxObjects-round.transferred = 0
    · refine ⟨round.outcome,round.registry,by rw [if_pos full],?_⟩
      rw [full]
      exact Gained.refl _
    · rw [if_neg full]
      have asked : 0 < min (node.maxObjects-round.transferred) ObjectQuery.maxLimit := by
        simp only [ObjectQuery.maxLimit]; omega
      obtain ⟨page,answered,short,last,more⟩ := serves.answers _ cursor asked known
      have fits : page.objects.length ≤ node.maxObjects-round.transferred := by omega
      have listed : ∀ metadata ∈ page.objects,metadata ∈ serves.after cursor := by
        intro metadata among
        cases left : page.nextCursor with
        | none => exact last left ▸ among
        | some next => rw [(more next left).2.1]; exact mem_append_left _ among
      obtain ⟨tried,ran,counted,gained⟩ := replicateEntries_gains collects streams clock round
        fun metadata among => delivers metadata (within metadata (listed metadata among))
      simp only [answered,ran]
      cases left : page.nextCursor with
      | none =>
        refine ⟨tried.outcome,tried.registry,rfl,?_⟩
        rw [←last left,take_of_length_le fits]; exact gained
      | some next =>
        obtain ⟨known,split,lower⟩ := more next left
        have inside : ∀ metadata ∈ serves.after (some next),metadata ∈ inventory := fun metadata among =>
          within metadata (by rw [split]; exact mem_append_right _ among)
        obtain ⟨outcome,after,later,rest⟩ := ih tried known inside (by omega)
        refine ⟨outcome,after,later,?_⟩
        have whole : (serves.after cursor).take (node.maxObjects-round.transferred) =
            page.objects ++ (serves.after (some next)).take (node.maxObjects-tried.transferred) := by
          rw [split,counted,take_append,take_of_length_le fits,Nat.sub_sub]
        rw [whole,map_append]; exact gained.trans rest

theorem replicatePeer_gains (collects : Collects blake3 node.registry) (streams : Streams node) (clock : Nat → Moment)
    (registry : σ) (serves : Serves node peer inventory)
    (delivers : ∀ metadata ∈ inventory,Nonempty (Delivers blake3 node peer serves.recipient metadata)) (enough : serves.rank none < pages) :
    ∃ outcome after,replicatePeer node peer clock pages registry = some (.ok outcome,after) ∧
      Gained collects ((inventory.take node.maxObjects).map (·.id)) registry after := by
  obtain ⟨outcome,after,ran,gained⟩ := replicatePages_gains collects streams serves delivers clock ⟨registry,0,⟨0,0⟩⟩ serves.first (fun _ among => serves.whole ▸ among) enough
  refine ⟨outcome,after,?_,?_⟩
  · unfold replicatePeer
    rw [serves.routed]
    exact ran
  · rw [serves.whole] at gained
    exact gained

end Steps

def replicateRounds (node : Replicator σ) (peers : Nat → Peer) (clocks : Nat → Nat → Moment) (pages : Nat → Nat)
    (start : σ) : Nat → Option σ
  | 0 => some start
  | rounds+1 => (replicateRounds node peers clocks pages start rounds).bind fun registry =>
      (replicatePeer node (peers rounds) (clocks rounds) (pages rounds) registry).map (·.2)

section Rounds
variable {blake3 : Blake3} {peers : Nat → Peer} {pages : Nat → Nat}

theorem replicateRounds_gains (collects : Collects blake3 node.registry) (streams : Streams node) (clocks : Nat → Nat → Moment)
    (start : σ) (serves : ∀ n,Serves node (peers n) inventory)
    (delivers : ∀ n,∀ metadata ∈ inventory,Nonempty (Delivers blake3 node (peers n) (serves n).recipient metadata))
    (enough : ∀ n,(serves n).rank none < pages n) (rounds : Nat) :
    ∃ after,replicateRounds node peers clocks pages start rounds = some after ∧
      Gained collects (if rounds = 0 then [] else (inventory.take node.maxObjects).map (·.id)) start after := by
  induction rounds with
  | zero => exact ⟨start,rfl,Gained.refl _⟩
  | succ rounds ih =>
    obtain ⟨before,ran,gained⟩ := ih
    obtain ⟨outcome,after,round,more⟩ := replicatePeer_gains collects streams (clocks rounds) before (serves rounds) (delivers rounds) (enough rounds)
    refine ⟨after,by simp only [replicateRounds,ran,Option.bind_some,round,Option.map_some],?_,?_⟩
    · intro id
      rw [more.held,gained.held,gained.intact,if_neg (Nat.succ_ne_zero rounds)]
      by_cases first : rounds = 0
      · simp [first]
      · rw [if_neg first]; tauto
    · intro id
      rw [more.intact,gained.intact]

end Rounds

end Gains

theorem formByte_plain : ∀ n < 256,∀ c ∈ formByte (UInt8.ofNat n),c ≠ '&' ∧ c ≠ '\n' ∧ c ≠ '\r' := by decide +kernel

theorem formEncode_plain (among : c ∈ formEncode text) : c ≠ '&' ∧ c ≠ '\n' ∧ c ≠ '\r' := by
  obtain ⟨b,-,here⟩ := mem_flatMap.mp among
  refine formByte_plain b.toNat b.toNat_lt c ?_
  rwa [UInt8.ofNat_toNat]

theorem inventoryQuery_clean (limit : Nat) (cursor : Option Str) : separated (inventoryQuery limit cursor) = false := by
  have encoded : ∀ text,(formEncode text).any (fun c => c = '\n' || c = '\r') = false := by
    intro text
    refine any_eq_false.mpr fun c among => ?_
    simp [(formEncode_plain among).2]
  unfold separated inventoryQuery
  cases cursor with
  | none => rw [any_append,any_append,encoded]; rfl
  | some cursor => rw [any_append,any_append,any_append,encoded,encoded]; rfl

def localNode (blake3 : Blake3) (decodePage : Bytes → Except Str ObjectPage) (maxObjects maxBytes : Nat) :
    Replicator Objects.ObjectStore where
  registry := provider blake3
  localRegistry := some (LocalRegistry.putObjectReader blake3)
  decodePage := decodePage
  maxObjects := maxObjects
  maxBytes := maxBytes

theorem localNode_streams (blake3 : Blake3) (decodePage : Bytes → Except Str ObjectPage) (maxObjects maxBytes : Nat) :
    Streams (localNode blake3 decodePage maxObjects maxBytes) := by
  intro putObjectReader direct registry now kind mediaType filename reader bytes read
  cases direct
  exact putReader_put read

-- When every request succeeds, rounds bring in the whole inventory of a peer exactly
-- if each object of it is held already or is among the first entries, as many as the
-- cap of a round, with no other bytes under its id. Every round starts at the first
-- page, and entries that are held count.
theorem replication_converges_iff (blake3 : Blake3) (decodePage : Bytes → Except Str ObjectPage) (maxObjects maxBytes : Nat)
    (peers : Nat → Peer) (clocks : Nat → Nat → Moment) (pages : Nat → Nat) (inventory : List ObjectMetadata) (start : Objects.ObjectStore)
    (serves : ∀ n,Serves (localNode blake3 decodePage maxObjects maxBytes) (peers n) inventory)
    (delivers : ∀ n,∀ metadata ∈ inventory,
      Nonempty (Delivers blake3 (localNode blake3 decodePage maxObjects maxBytes) (peers n) (serves n).recipient metadata))
    (enough : ∀ n,(serves n).rank none < pages n) :
    let node := localNode blake3 decodePage maxObjects maxBytes
    (∀ rounds,∃ after,replicateRounds node peers clocks pages start rounds = some after) ∧
    ((∃ rounds after,replicateRounds node peers clocks pages start rounds = some after ∧
        ∀ metadata ∈ inventory,∃ content,getObject blake3 after metadata.id = .ok content) ↔
      ∀ metadata ∈ inventory,(∃ content,getObject blake3 start metadata.id = .ok content) ∨
        metadata.id ∈ (inventory.take maxObjects).map (·.id) ∧ LocalRegistry.Intact blake3 start metadata.id) := by
  intro node
  have ran := fun rounds => replicateRounds_gains (LocalRegistry.collects blake3)
    (localNode_streams blake3 decodePage maxObjects maxBytes) clocks start serves delivers enough rounds
  refine ⟨fun rounds => ?_,?_,fun each => ?_⟩
  · obtain ⟨after,done,-⟩ := ran rounds
    exact ⟨after,done⟩
  · rintro ⟨rounds,after,done,all⟩ metadata among
    obtain ⟨after',done',gained⟩ := ran rounds
    rw [done] at done'
    cases done'
    have held := (gained.held metadata.id).mp (held_iff.mp (all metadata among))
    rcases held with before | ⟨tried,intact⟩
    · exact .inl (held_iff.mpr before)
    · split at tried
      · cases tried
      · exact .inr ⟨tried,intact⟩
  · obtain ⟨after,done,gained⟩ := ran 1
    refine ⟨1,after,done,fun metadata among => held_iff.mpr ((gained.held metadata.id).mpr ?_)⟩
    rcases each metadata among with before | later
    · exact .inl (held_iff.mp before)
    · exact .inr later

-- A small world to evaluate in: a peer that lists two objects, one on a page.
namespace Mirror

def blake3 : Blake3 where
  hash bytes :=
    if bytes = [97] then Sample.bytesOf "17762fddd969a453925d65717ac3eea21320b66b54342fde15128d6caf21215f"
    else if bytes = [98] then Sample.bytesOf "10e5cf3d3c8a4f9f3468c8cc58eea84892a22fdadbc1acb22410190044c1d553"
    else replicate 32 0
  whole bytes := by
    split
    · decide
    · split
      · decide
      · decide

def entry (bytes : Bytes) : ObjectMetadata := ⟨blake3.id bytes,"file".toList,"text/plain".toList,none,1,1700000000000⟩
def inventory : List ObjectMetadata := [entry [97],entry [98]]

def pageText (listed : ObjectMetadata) (next : Str) : Bytes := toUtf8 ("\x7b\"objects\":[\x7b\"id\":\"".toList ++ listed.id ++
  "\",\"kind\":\"file\",\"media_type\":\"text/plain\",\"filename\":null,\"size\":1,".toList ++
  "\"created_at_millis\":1700000000000\x7d],\"next_cursor\":".toList ++ next ++ ",\"truncated\":false\x7d".toList)
def firstPage : Bytes := pageText (entry [97]) "\"1\"".toList
def secondPage : Bytes := pageText (entry [98]) "null".toList

def decodePage (body : Bytes) : Except Str ObjectPage :=
  if body = firstPage then .ok ⟨[entry [97]],some ['1'],false⟩
  else if body = secondPage then .ok ⟨[entry [98]],none,false⟩
  else .error "expected value at line 1 column 1".toList

def origin : Str := "https://b.example".toList

def peer : Peer where
  endpoint := origin
  recipient := some origin
  send path query _ :=
    if path = objectsPath then
      .ok ⟨200,[],if query.any (fun text => text.contains '&') then secondPage else firstPage⟩
    else if path = objectsPath ++ "/".toList ++ blake3.id [97] then .ok ⟨200,[("content-type".toList,"text/plain".toList)],[97]⟩
    else if path = objectsPath ++ "/".toList ++ blake3.id [98] then .ok ⟨200,[("content-type".toList,"text/plain".toList)],[98]⟩
    else .ok ⟨404,[],[]⟩
  blobChannel := none

variable (maxObjects : Nat)

def node : Replicator Objects.ObjectStore := localNode blake3 decodePage maxObjects 1024

theorem streams : Streams (node maxObjects) := localNode_streams blake3 decodePage maxObjects 1024

theorem inventoryPage_peer (maxObjects limit : Nat) (cursor : Option Str) :
    inventoryPage (node maxObjects) peer origin limit cursor =
      .ok (if cursor.isSome then ⟨[entry [98]],none,false⟩ else ⟨[entry [97]],some ['1'],false⟩) := by
  have clean : rejectSeparators "GET".toList objectsPath (some (inventoryQuery limit cursor)) origin = .ok () := by
    refine rejectSeparators_ok.mpr ⟨by decide,by decide,fun text asked => ?_,by decide⟩
    cases asked
    exact inventoryQuery_clean limit cursor
  have marked : (inventoryQuery limit cursor).contains '&' = cursor.isSome := by
    unfold inventoryQuery
    cases cursor with
    | none =>
      have absent : '&' ∉ formEncode (decimal limit) := fun among => (formEncode_plain among).1 rfl
      simp [absent]
    | some cursor => simp
  have sent : peer.send objectsPath (some (inventoryQuery limit cursor)) (some inventoryMaxResponseBytes) =
      .ok ⟨200,[],if cursor.isSome then secondPage else firstPage⟩ := by
    simp only [peer,if_true,Option.any_some,marked]
  unfold inventoryPage
  refine (Fallible.ok_bind ((Fallible.ok_bind clean).trans sent)).trans ?_
  have differ : secondPage ≠ firstPage := by decide
  cases cursor with
  | none => simp [node,localNode,decodePage]
  | some cursor => simp [node,localNode,decodePage,differ]

def serves : Serves (node maxObjects) peer inventory where
  recipient := origin
  routed := rfl
  known _ := True
  after cursor := if cursor.isSome then [entry [98]] else inventory
  rank cursor := if cursor.isSome then 0 else 1
  first := trivial
  whole := rfl
  answers limit cursor positive _ := by
    refine ⟨_,inventoryPage_peer maxObjects limit cursor,?_⟩
    cases cursor with
    | none => exact ⟨positive,fun none => (by cases none),fun next some => (by cases some; exact ⟨trivial,rfl,Nat.zero_lt_one⟩)⟩
    | some cursor => exact ⟨positive,fun _ => rfl,fun next some => (by cases some)⟩

theorem delivers : ∀ metadata ∈ inventory,
    Nonempty (Delivers blake3 (node maxObjects) peer (serves maxObjects).recipient metadata) := by
  intro metadata among
  simp only [inventory,mem_cons,not_mem_nil,or_false] at among
  have reached : ∀ bytes,bytes = [97] ∨ bytes = [98] → ∃ response,
      signedGet peer origin (objectsPath ++ "/".toList ++ blake3.id bytes) none (some 1024) = .ok response ∧
      response.isSuccess = true ∧ response.body = bytes := by
    rintro bytes (rfl | rfl)
    · exact ⟨⟨200,[("content-type".toList,"text/plain".toList)],[97]⟩,by decide,rfl,rfl⟩
    · exact ⟨⟨200,[("content-type".toList,"text/plain".toList)],[98]⟩,by decide,rfl,rfl⟩
  rcases among with rfl | rfl
  · exact ⟨⟨[97],rfl,rfl,Nat.le_of_ble_eq_true rfl,fun _ => reached [97] (.inl rfl),fun _ offered => (by cases offered)⟩⟩
  · exact ⟨⟨[98],rfl,rfl,Nat.le_of_ble_eq_true rfl,fun _ => reached [98] (.inr rfl),fun _ offered => (by cases offered)⟩⟩

end Mirror

-- With a cap of two a round brings both objects in.
theorem replication_converges_mirror : ∃ rounds after,
    replicateRounds (Mirror.node 2) (fun _ => Mirror.peer) (fun _ _ => ⟨0,0⟩) (fun _ => 2) empty rounds = some after ∧
    ∀ metadata ∈ Mirror.inventory,∃ content,getObject Mirror.blake3 after metadata.id = .ok content := by
  refine (replication_converges_iff Mirror.blake3 Mirror.decodePage 2 1024 (fun _ => Mirror.peer) (fun _ _ => ⟨0,0⟩) (fun _ => 2)
    Mirror.inventory empty (fun _ => Mirror.serves 2) (fun _ => Mirror.delivers 2) (fun _ => by decide)).2.mpr ?_
  refine fun metadata among => .inr ⟨mem_map_of_mem among,fun digest bytes read blob => ?_⟩
  cases blob

-- With a cap of one every request of every round succeeds, and the second object
-- never comes.
theorem second_never_comes : Nonempty (Serves (Mirror.node 1) Mirror.peer Mirror.inventory) ∧
    (∀ metadata ∈ Mirror.inventory,
      Nonempty (Delivers Mirror.blake3 (Mirror.node 1) Mirror.peer (Mirror.serves 1).recipient metadata)) ∧
    (∀ rounds,(replicateRounds (Mirror.node 1) (fun _ => Mirror.peer) (fun _ _ => ⟨0,0⟩) (fun _ => 2) empty
      rounds).isSome) ∧ ¬∃ rounds after,
      replicateRounds (Mirror.node 1) (fun _ => Mirror.peer) (fun _ _ => ⟨0,0⟩) (fun _ => 2) empty rounds = some after ∧
      ∀ metadata ∈ Mirror.inventory,∃ content,getObject Mirror.blake3 after metadata.id = .ok content := by
  have enough : (Mirror.serves 1).rank none < 2 := by decide
  have ran := fun rounds => replicateRounds_gains (LocalRegistry.collects Mirror.blake3) (Mirror.streams 1) (fun _ _ => ⟨0,0⟩) empty
    (fun _ => Mirror.serves 1) (fun _ => Mirror.delivers 1) (fun _ => enough) rounds
  refine ⟨⟨Mirror.serves 1⟩,Mirror.delivers 1,fun rounds => ?_,?_⟩
  · obtain ⟨after,done,-⟩ := ran rounds
    rw [done]
    rfl
  · rintro ⟨rounds,after,done,all⟩
    obtain ⟨after',done',gained⟩ := ran rounds
    rw [done] at done'
    cases done'
    have second := all (Mirror.entry [98]) (mem_cons_of_mem _ mem_cons_self)
    rcases (gained.held _).mp (held_iff.mp second) with ⟨digest,bytes,metadata,-,blob,-⟩ | ⟨tried,-⟩
    · cases blob
    · split at tried
      · cases tried
      · exact absurd tried (by decide)

end HologramLive.Cluster
