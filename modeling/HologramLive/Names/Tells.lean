import HologramLive.Names.Run

-- A log tells its history: in every state of a run it verifies, and its entries
-- answer as the facts do.
namespace Names
open Js Tables Runs List

variable {κ : Type} {primitives : Primitives κ}

section Index
variable (k : Nat) (n r index : Text) (facts : Facts)

theorem observed_index (who : Text) : observed ((k,.index n r index) :: facts) who = observed facts who := by
  unfold observed
  rw [findSome?_cons]

theorem digest_index (who at_ path : Text) :
    digest ((k,.index n r index) :: facts) who at_ path = digest facts who at_ path := by
  unfold digest
  rw [findSome?_cons]

theorem filed_index (who : Text) : filed ((k,.index n r index) :: facts) who = filed facts who := by
  unfold filed
  rw [findSome?_cons]

theorem known_index (who at_ : Text) : known ((k,.index n r index) :: facts) who at_ = known facts who at_ := by
  unfold known
  rw [flatMap_cons,nil_append]

theorem lastIndex_index (who at_ : Text) : lastIndex ((k,.index n r index) :: facts) who at_ =
    if n = who ∧ r = at_ then some index else lastIndex facts who at_ := by
  unfold lastIndex
  rw [findSome?_cons]
  by_cases same : n = who ∧ r = at_
  · simp only [if_pos same]
  · simp only [if_neg same]

end Index

theorem index_answers {facts : Facts} {name revision index who : Text} {k : Nat} {p : Pointed} {e : Value}
    (kind : e.get? (ascii "kind") = some (.str (ascii "indexed"))) (named : e.get? (ascii "name") = some (.str name))
    (at_ : e.get? (ascii "revision") = some (.str revision)) (indexed : e.get? (ascii "index") = some (.str index))
    (answers : Answers p facts who) :
    Answers (pointedStep who none none p e) ((k,.index name revision index) :: facts) who := by
  by_cases same : name = who
  · subst same
    have within : skipped name none none e = false := by
      unfold skipped
      rw [named]
      simp [isText]
    have step : pointedStep name none none p e =
        if identical (some (.str revision)) p.revision then { p with index := some (.str index) } else p := by
      rw [pointedStep,if_neg (by rw [within]; decide)]
      simp only [kind,at_,indexed]
      rw [if_neg (by decide)]
      cases identical (some (.str revision)) p.revision <;> rfl
    rw [step]
    unfold Answers at answers ⊢
    rw [observed_index]
    cases last : observed facts name with
    | none =>
      rw [last] at answers
      rw [answers]
      rfl
    | some r =>
      rw [last] at answers
      obtain ⟨points,files,index_⟩ := answers
      by_cases here : revision = r
      · subst here
        have identical_ : identical (some (.str revision)) p.revision = true := by rw [points]; exact decide_eq_true rfl
        rw [if_pos identical_]
        refine ⟨points,fun path => ?_,?_⟩
        · rw [digest_index]; exact files path
        · rw [lastIndex_index,if_pos ⟨rfl,rfl⟩]; rfl
      · have apart : ¬identical (some (.str revision)) p.revision = true := by
          rw [points]; exact fun equal => here (of_decide_eq_true equal)
        rw [if_neg apart]
        refine ⟨points,fun path => ?_,?_⟩
        · rw [digest_index]; exact files path
        · rw [lastIndex_index,if_neg fun both => here both.2]; exact index_
  · have out : skipped who none none e = true := by
      unfold skipped
      rw [named]
      simp [isText,same]
    rw [pointedStep,if_pos out]
    refine answers_congr answers (observed_index k name revision index facts who) (fun r _ path => digest_index _ _ _ _ _ _ _ _)
      fun r => ?_
    rw [lastIndex_index,if_neg fun both => same both.1]

section Steps
variable {s : Session κ} {entries : List Value}

theorem Good.indexed (good : Good primitives s entries) (small : s.opened.log.seq+2 ≤ 2^53) (clock : Nat → Text)
    (name revision index table : Text) : ∃ e,Good primitives
      ⟨Names.indexed primitives s.opened clock name revision index table,
        ((Names.indexed primitives s.opened clock name revision index table).log.seq,.index name revision index) :: s.facts,
        s.calls⟩ (entries ++ [e]) := by
  have seq := good.intact.seq
  have kept : Intact primitives (Names.indexed primitives s.opened clock name revision index table)
      (entries ++ [entry s.opened.log (clock (s.opened.log.seq+1)) (ascii "indexed") [(ascii "name",.str name),
        (ascii "revision",.str revision),(ascii "index",.str index),(ascii "table",.str table)]]) := by
    refine good.intact.append (Nat.le_of_succ_le small)
      (show (baseKeys ++ [ascii "name",ascii "revision",ascii "index",ascii "table"]).Nodup by decide) fun row member => ?_
    simp only [mem_cons,not_mem_nil,or_false] at member
    rcases member with rfl | rfl | rfl | rfl
    · exact ⟨.str _,rfl⟩
    · exact ⟨.str _,rfl⟩
    · exact ⟨.str _,rfl⟩
    · exact ⟨.str _,rfl⟩
  have answered (who : Text) := @index_answers s.facts name revision index who (s.opened.log.seq+1) _
    (entry s.opened.log (clock (s.opened.log.seq+1)) (ascii "indexed") [(ascii "name",.str name),
      (ascii "revision",.str revision),(ascii "index",.str index),(ascii "table",.str table)])
    (entry_kind _ _ _) (by rw [entry_field (by decide)]; rfl) (by rw [entry_field (by decide)]; rfl)
    (by rw [entry_field (by decide)]; rfl) (good.now who)
  refine ⟨_,kept,?_,?_,?_,?_,?_,?_⟩
  · have same : (Names.indexed primitives s.opened clock name revision index table).log.latest = s.opened.log.latest := by
      show track s.opened.log.latest (entry s.opened.log (clock (s.opened.log.seq+1)) (ascii "indexed") [(ascii "name",.str name),
        (ascii "revision",.str revision),(ascii "index",.str index),(ascii "table",.str table)]) = _
      unfold track
      rw [entry_kind,entry_field (by decide),entry_field (by decide)]
      rfl
    rw [same]
    refine ⟨fun n r q d found => ?_,fun n seen_ => ?_,fun key stored => ?_⟩
    · rw [digest_index] at found; exact good.latest.path n r q d found
    · rw [observed_index] at seen_; rw [filed_index]; exact good.latest.name n seen_
    · rcases good.latest.only key stored with ⟨n,r,q,known_,equal⟩ | seen_
      · exact .inl ⟨n,r,q,by rw [digest_index]; exact known_,equal⟩
      · exact .inr (by rw [observed_index]; exact seen_)
  · intro fact member
    rw [length_append,length_singleton]
    rcases mem_cons.mp member with rfl | member
    · exact Nat.le_of_eq (congrArg (·+1) seq)
    · exact (good.stamped fact member).trans (Nat.le_succ _)
  · intro who
    rw [pointedAt,foldl_append]
    exact answered who
  · intro k who positive short
    rw [length_append,length_singleton] at short
    have later : k < s.opened.log.seq+1 := by rw [seq]; exact short
    show Answers _ (upTo k ((s.opened.log.seq+1,.index name revision index) :: s.facts)) who
    rw [upTo_new later,take_added (Nat.le_of_lt_succ short)]
    rcases Nat.eq_or_lt_of_le (Nat.le_of_lt_succ short) with whole | below
    · rw [upTo_old fun fact member => (good.stamped fact member).trans (Nat.le_of_eq whole.symm),whole,take_length]
      exact good.now who
    · exact good.past k who positive below
  · intro who r seen_ filled
    rw [observed_index] at seen_
    rw [known_index] at filled
    rw [filed_index]
    exact good.recorded who r seen_ filled
  · intro other r files found
    obtain ⟨here,digests⟩ := good.last other r files found
    refine ⟨by rw [observed_index]; exact here,fun p d has => ?_⟩
    rw [digest_index]
    exact digests p d has

theorem Good.reopened (good : Good primitives s entries) (witness : Text) :
    Good primitives ⟨⟨s.opened.disk,{ s.opened.log with witness := witness }⟩,s.facts,s.calls⟩ entries :=
  ⟨good.intact.witness witness,good.latest,good.stamped,good.now,good.past,good.recorded,good.last⟩

theorem good_started (started : Started primitives s) : Good primitives s [] := by
  obtain ⟨witness,generated,key,made,noFacts,noCalls⟩ := started
  obtain ⟨intact,latest⟩ := intact_opened made
  obtain ⟨opened_,facts,calls⟩ := s
  subst noFacts noCalls
  refine ⟨intact,?_,by simp,fun who => rfl,fun k who _ short => (by cases short),fun who r seen_ => (by cases seen_),
    fun name revision files found => (by cases found)⟩
  rw [latest]
  exact ⟨fun n r q d found => (by cases found),fun n seen_ => (by cases seen_),fun k stored => by simp at stored⟩

theorem good_taken (good : Good primitives s entries) (taken : Taken (act primitives) FineCall s t) :
    ∃ more,Good primitives t (entries ++ more) := by
  obtain ⟨call,⟨small,fine⟩,ran⟩ := taken
  cases call with
  | witnessFiles clock name revision files => cases ran; exact good.observed small fine
  | indexed clock name revision index table =>
    cases ran
    obtain ⟨e,held⟩ := good.indexed small clock name revision index table
    exact ⟨[e],held⟩
  | signHead at_ =>
    cases ran
    exact ⟨[],by rw [append_nil]; exact good⟩
  | reopen witness generated =>
    have ran' : (opened primitives witness generated s.opened.disk).map
      (fun again => (⟨again,s.facts,s.calls⟩ : Session κ)) = some t := ran
    rw [good.intact.reopens witness generated] at ran'
    cases ran'
    exact ⟨[],by rw [append_nil]; exact good.reopened witness⟩

theorem good_reached (reached : Reached (Started primitives) (Taken (act primitives) FineCall) s) :
    ∃ entries,Good primitives s entries := by
  refine reached.invariant (fun s => ∃ entries,Good primitives s entries) (fun s started => ⟨[],good_started started⟩) ?_
  rintro s t _ ⟨entries,good⟩ taken
  obtain ⟨more,held⟩ := good_taken good taken
  exact ⟨_,held⟩

end Steps

theorem pointed_sorted (shaped : ∀ e ∈ entries,Shaped e) (name : Text) (when_ : Option Text)
    (upto : Option Nat) : pointedAt (entries.map sorted) name when_ upto = pointedAt entries name when_ upto := by
  unfold pointedAt
  rw [foldl_map]
  refine foldl_ext _ _ _ fun p e member => ?_
  have shape := shaped e member
  have out : skipped name when_ upto (sorted e) = skipped name when_ upto e := by
    simp only [skipped,seqOf,shape.get]
  simp only [pointedStep,out,shape.get]

theorem pointed_upto {prev : Option Text}
    (chain : Chain primitives i prev entries last) (name : Text) (positive : 0 < upto) (p : Pointed) :
    entries.foldl (pointedStep name none (some upto)) p = (entries.take (upto-i)).foldl (pointedStep name none none) p := by
  induction entries generalizing i prev p with
  | nil => simp
  | cons e rest ih =>
    obtain ⟨number,_,later⟩ := chain
    have seq := seqOf_number number
    rw [foldl_cons]
    by_cases within : i+1 ≤ upto
    · have step : pointedStep name none (some upto) p e = pointedStep name none none p e := by
        have same : skipped name none (some upto) e = skipped name none none e := by
          simp only [skipped,seq]
          simp [Nat.not_lt.mpr within]
        simp only [pointedStep,same]
      have cut : upto-i = (upto-(i+1))+1 := by omega
      rw [step,cut,take_succ_cons,foldl_cons,ih later]
    · have step : pointedStep name none (some upto) p e = p := by
        have out : skipped name none (some upto) e = true := by
          simp only [skipped,seq]
          have beyond : upto < i+1 := by omega
          have nonzero : upto ≠ 0 := by omega
          simp [beyond,nonzero]
        simp only [pointedStep,out,if_true]
      have none : upto-i = 0 := by omega
      have later_ : upto-(i+1) = 0 := by omega
      rw [step,ih later,none,later_]
      rfl

theorem Good.upto (good : Good primitives s entries) (name : Text) {upto : Nat}
    (positive : 0 < upto) : Answers (pointedAt entries name none (some upto)) (upTo upto s.facts) name := by
  have cut : pointedAt entries name none (some upto) = pointedAt (entries.take upto) name none none :=
    pointed_upto good.intact.chain name positive _
  rw [cut]
  by_cases short : upto < entries.length
  · exact good.past upto name positive short
  · have long : entries.length ≤ upto := Nat.le_of_not_lt short
    rw [take_of_length_le long,upTo_old fun fact member => (good.stamped fact member).trans long]
    exact good.now name

theorem Intact.verifies (intact : Intact primitives opened_ entries) (at_ : Text) :
    verifyLog primitives (opened_.disk.log.getD []) (signHead primitives opened_ at_) = some (entries.map sorted,[]) := by
  unfold verifyLog
  rw [intact.file,lines_entries intact.shaped,replay_chain intact.shaped intact.chain]
  have says_ : (signHead primitives opened_ at_).seq = (entries.map sorted).length ∧
      (signHead primitives opened_ at_).head = opened_.log.prev := ⟨by rw [length_map]; exact intact.seq,rfl⟩
  have signs : primitives.verifies (signHead primitives opened_ at_).publicKey (signed (signHead primitives opened_ at_))
      (signHead primitives opened_ at_).signature = true := primitives.correct _ _
  simp only [Option.map_some,if_pos says_,if_pos signs]
  rfl

theorem Intact.detects (intact : Intact primitives opened_ entries)
    (verified : verifyLog primitives text (signHead primitives opened_ at_) = some (others,[])) :
    @Collision κ primitives ∨ others.map sorted = entries.map sorted := by
  obtain ⟨⟨found,problems,last⟩,replayed,shape⟩ := Option.map_eq_some_iff.mp verified
  simp only [Prod.mk.injEq,append_eq_nil_iff] at shape
  obtain ⟨rfl,rfl,ends,_⟩ := shape
  have both : (signHead primitives opened_ at_).seq = found.length ∧ (signHead primitives opened_ at_).head = last := by
    by_contra wrong
    rw [if_neg wrong] at ends
    cases ends
  obtain ⟨long,same⟩ := both
  obtain ⟨chain,sound⟩ := chain_replay replayed
  rw [←same] at chain
  rcases Chain.same intact.shaped sound intact.chain chain (long.symm.trans intact.seq) with collision | ⟨_,equal⟩
  · exact .inl collision
  · exact .inr equal

-- What an observation made now does: an alert for the files whose digest is not
-- the last one, and nothing where it is the last observation again.
structure ObservedNow (primitives : Primitives κ) (s : Session κ) (clock : Nat → Text) (name revision : Text)
    (files : Files) : Prop where
  silent : (differing s.facts name revision files).isEmpty = true →
    (witnessFiles primitives s.opened clock name revision files).2 = []
  alerts : (differing s.facts name revision files).isEmpty = false → ∃ e,
    (witnessFiles primitives s.opened clock name revision files).2 = [e] ∧
      Alert e s.facts name revision (differing s.facts name revision files)
  again : s.calls.find? (fun call => call.1 = name) = some (name,revision,files) →
    (witnessFiles primitives s.opened clock name revision files).1 = s.opened

theorem Added.same {before after : Opened κ}
    (added : Added primitives before entries name revision written after []) : after = before := by
  cases added with
  | nothing empty => rfl

theorem Good.observes (good : Good primitives s entries) (fine : FineCall s (.witnessFiles clock name revision files)) :
    ObservedNow primitives s clock name revision files := by
  obtain ⟨small,apart,_,stays,_⟩ := fine
  obtain ⟨middle,first,more,one,two,still,quiet,silent,alerts⟩ :=
    observation clock good.intact small good.latest (clear_apart apart)
  refine ⟨silent,alerts,fun found => ?_⟩
  obtain ⟨here,digests⟩ := good.last name revision files found
  have unchanged : (differing s.facts name revision files).isEmpty = true := by
    rw [Std.ExtTreeMap.isEmpty_iff]
    refine table_ext fun p => ?_
    unfold differing
    rw [filter_get]
    cases has : files[p]? with
    | none => simp
    | some d => rw [digests p d has]; simp [Option.filter]
  have known_ : (freshOf s.facts name revision files).isEmpty = true := by
    rw [Std.ExtTreeMap.isEmpty_iff]
    refine table_ext fun p => ?_
    unfold freshOf
    rw [filter_get]
    cases has : files[p]? with
    | none => simp
    | some d => rw [digests p d has]; simp [Option.filter]
  have filled : known s.facts name revision ≠ [] := by
    rcases stays here with some_ | before
    · obtain ⟨p,d,has⟩ := some_get some_
      exact ne_nil_of_mem (digest_known (digests p d has))
    · exact before
  have unmoved : ¬Moving s.facts name revision := by
    rintro ⟨r,last,_,other⟩
    rw [good.recorded name revision here filled] at last
    exact other (Option.some.inj last).symm
  have noFirst := still.mpr ⟨unchanged,unmoved⟩
  subst noFirst
  have noMore := quiet known_
  subst noMore
  rw [two.same,one.same]

-- The claims about one state of a log: it opens again as it is and verifies, no
-- other entries verify under its head unless two texts have one hash, and the
-- entries read back answer as the facts do, up to any entry.
structure TellsHistory (primitives : Primitives κ) (s : Session κ) : Prop where
  reopens : ∀ witness generated,opened primitives witness generated s.opened.disk =
    some ⟨s.opened.disk,{ s.opened.log with witness := witness }⟩
  verifies : ∀ at_,∃ entries,
    verifyLog primitives (s.opened.disk.log.getD []) (signHead primitives s.opened at_) = some (entries,[]) ∧
    (∀ text others,verifyLog primitives text (signHead primitives s.opened at_) = some (others,[]) →
      @Collision κ primitives ∨ others.map sorted = entries.map sorted) ∧
    ∀ name,Answers (pointedAt entries name none none) s.facts name ∧
      ∀ upto,0 < upto → Answers (pointedAt entries name none (some upto)) (upTo upto s.facts) name
  observes : ∀ clock name revision files,FineCall s (.witnessFiles clock name revision files) →
    ObservedNow primitives s clock name revision files

theorem Good.tells (good : Good primitives s entries) : TellsHistory primitives s := by
  refine ⟨good.intact.reopens,fun at_ => ⟨_,good.intact.verifies at_,fun text others verified => ?_,fun name => ⟨?_,?_⟩⟩,
    fun clock name revision files fine => good.observes fine⟩
  · have twice : (entries.map sorted).map sorted = entries.map sorted := by
      rw [map_map]
      exact map_congr_left fun e member => (good.intact.shaped e member).twice
    rw [twice]
    exact good.intact.detects verified
  · rw [pointed_sorted good.intact.shaped]
    exact good.now name
  · intro upto positive
    rw [pointed_sorted good.intact.shaped]
    exact good.upto name positive

-- In every run whose observations are told, the log tells its history.
theorem names_log_tells {s : Session κ} (reached : Reached (Started primitives) (Taken (act primitives) FineCall) s) :
    TellsHistory primitives s := by
  obtain ⟨entries,good⟩ := good_reached reached
  exact good.tells

namespace Sample

def numerals : Numerals where
  shown token := if readNumber token = some (token,[]) then token else ascii "Infinity"
  steady input token rest _ := by
    by_cases back : readNumber token = some (token,[])
    · rw [if_pos back]
      exact .inr ⟨back,if_pos back⟩
    · rw [if_neg back]
      exact .inl rfl
  naturals n _ := if_pos (readNumber_digits n)

def scheme : Primitives Unit where
  numerals := numerals
  sha text := digits (text.foldl (fun sum u => (sum*31+u.val) % 100000000) 7)
  publicKey _ := ascii "00"
  sign _ message := message
  verifies _ message signature := message = signature
  correct _ _ := decide_eq_true rfl

def clock (n : Nat) : Text := ascii "2026-01-01T00:00:0" ++ digits n ++ ascii "Z"
def model : Text := ascii "org/m"
def weights : Text := ascii "model.safetensors"
def at_ (digest : String) : Files := (∅ : Files).insert weights (ascii digest)

def fresh : Session Unit := ⟨⟨⟨none,some ()⟩,⟨ascii "test",(),0,none,∅⟩⟩,[],[]⟩

theorem fresh_started : Started scheme fresh := ⟨ascii "test",(),none,rfl,rfl,rfl⟩

def moveBack : List (Call Unit) :=
  [.witnessFiles clock model (ascii "r1") (at_ "sha256:aa"),.witnessFiles clock model (ascii "r2") (at_ "sha256:bb"),
    .witnessFiles clock model (ascii "r1") (at_ "sha256:aa")]

-- What is wrong there: the log answers the first revision without its file, and
-- the same observation once more appends an entry.
def lost (s : Session Unit) : Bool :=
  ((verifyLog scheme (s.opened.disk.log.getD []) (signHead scheme s.opened (clock 9))).any fun found =>
    found.2.isEmpty && ((pointedAt found.1 model none none).files[weights]?).isNone) &&
  observed s.facts model = some (ascii "r1") &&
  digest s.facts model (ascii "r1") weights = some (ascii "sha256:aa") &&
  (witnessFiles scheme s.opened clock model (ascii "r1") (at_ "sha256:aa")).1.log.seq = s.opened.log.seq+1

theorem move_back_lost : ∃ s,Reached (Started scheme) (Taken (act scheme) fun _ _ => True) s ∧
    (∃ entries,verifyLog scheme (s.opened.disk.log.getD []) (signHead scheme s.opened (clock 9)) = some (entries,[]) ∧
      ¬Answers (pointedAt entries model none none) s.facts model) ∧
    s.calls.head? = some (model,ascii "r1",at_ "sha256:aa") ∧
    (witnessFiles scheme s.opened clock model (ascii "r1") (at_ "sha256:aa")).1.log.seq = s.opened.log.seq+1 := by
  have shown : (play (act scheme) (fun _ _ => True) fresh moveBack).any (fun s => lost s &&
      decide (s.calls.head?.map (fun call => (call.1,call.2.1,call.2.2.toList)) =
        some (model,ascii "r1",(at_ "sha256:aa").toList))) = true := by decide +kernel
  obtain ⟨s,reached,seen_⟩ := play_shows fresh_started shown
  simp only [lost,Bool.and_eq_true,decide_eq_true_eq] at seen_
  obtain ⟨⟨⟨⟨verified,here⟩,last⟩,again⟩,call⟩ := seen_
  refine ⟨s,reached,?_,?_,again⟩
  · obtain ⟨⟨entries,problems⟩,is,both⟩ := (Option.any_eq_true _ _).mp verified
    simp only [Bool.and_eq_true,List.isEmpty_iff] at both
    obtain ⟨rfl,absent⟩ := both
    refine ⟨entries,is,fun answers => ?_⟩
    unfold Answers at answers
    rw [here] at answers
    have has := answers.2.1 weights
    rw [last] at has
    rw [has] at absent
    cases absent
  · cases first : s.calls.head? with
    | none => rw [first] at call; cases call
    | some found =>
      rw [first] at call
      obtain ⟨name,revision,files⟩ := found
      simp only [Option.map_some,Option.some.injEq,Prod.mk.injEq] at call
      obtain ⟨rfl,rfl,rows⟩ := call
      have same : files = at_ "sha256:aa" := table_ext fun k => by
        cases has : files[k]? with
        | none =>
          cases other : (at_ "sha256:aa")[k]? with
          | none => rfl
          | some d =>
            have member := mem_rows.mpr other
            rw [←rows,mem_rows,has] at member; cases member
        | some d =>
          have member := mem_rows.mpr has
          rw [rows,mem_rows] at member; exact member.symm
      rw [same]

-- Files recorded, indexed, replaced and moved, with the log opened again.
def history : List (Call Unit) :=
  [.witnessFiles clock model (ascii "r1") (at_ "sha256:aa"),.indexed clock model (ascii "r1") (ascii "sha256:11") (ascii "sha256:22"),
    .witnessFiles clock model (ascii "r1") (at_ "sha256:cc"),.reopen (ascii "second") (),
    .witnessFiles clock model (ascii "r2") (at_ "sha256:dd"),.signHead (clock 9)]

theorem history_tells : ∃ s,s.opened.log.seq = 5 ∧ TellsHistory scheme s := by
  have shown : (play (act scheme) FineCall fresh history).any (fun s => decide (s.opened.log.seq = 5)) = true := by
    decide +kernel
  obtain ⟨s,reached,seen_⟩ := play_shows fresh_started shown
  exact ⟨s,of_decide_eq_true seen_,names_log_tells reached⟩

end Sample

end Names
