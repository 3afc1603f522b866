import HologramLive.History.FreshIds
namespace HologramLive.History
open Tables Rpc Runs Linear List

variable {settings : Settings} {s : State} {order before later : List (Entry Op Answer)} {digest id : Str}
  {files after opened : Files} {answer : Answer} {conversation : Conversation} {op : Op} {e : Entry Op Answer}

theorem persistUnlocked_cases (ran : persistUnlocked files conversation = result) :
    result.2 = files ∧ (∃ error,result.1 = .error error) ∨ ∃ digest,pathFor conversation.id = .ok digest ∧
      result = (.ok (.conversation conversation),files.insert digest conversation) := by
  subst ran
  unfold persistUnlocked
  split
  · exact .inl ⟨rfl,_,rfl⟩
  · rename_i digest path
    exact .inr ⟨digest,path,rfl⟩

-- What a call alone does to the files: nothing, or it writes the conversation that
-- it answers, a new one or a change of one that was there, or it removes a file.
inductive Effect (files : Files) (op : Op) (answer : Answer) (after : Files) : Prop
  | nothing (same : after = files) (unwritten : ∀ id conversation,op.target = some id → answer ≠ .ok (.conversation conversation))
  | create (title : Str) (conversation : Conversation) (digest : Str) (asked : op = .create title)
    (answered : answer = .ok (.conversation conversation)) (path : pathFor conversation.id = .ok digest)
    (written : after = files.insert digest conversation)
  | change (id : Str) (old conversation : Conversation) (digest : Str) (asked : op.target = some id)
    (path : pathFor id = .ok digest) (found : files[digest]? = some old) (target : pathFor conversation.id = .ok digest)
    (answered : answer = .ok (.conversation conversation)) (written : after = files.insert digest conversation)
    (grown : old.messages <+: conversation.messages)
  | remove (id digest : Str) (asked : op = .delete id) (path : pathFor id = .ok digest) (written : after = files.erase digest)

theorem changed_grown (outside : Outside) : conversation.messages <+: (changed outside conversation op).messages := by
  cases op with
  | append | appendExchange => exact prefix_append _ _
  | create | list | get | setArchived | delete => exact prefix_refl _

theorem serial_effect (ran : Serial settings files op answer after) (keyed : Keyed files) : Effect files op answer after := by
  obtain ⟨outside,_,ran⟩ := ran
  cases op with
  | create title =>
    simp only [serial] at ran
    split at ran
    · cases ran
      exact .nothing rfl fun _ _ never => by cases never
    · rcases persistUnlocked_cases ran with ⟨same,_⟩ | ⟨digest,path,written⟩
      · exact .nothing same fun _ _ never => by cases never
      · cases written; exact .create title _ digest rfl rfl path rfl
  | list includeArchived => cases ran; exact .nothing rfl fun _ _ never => by cases never
  | get id => cases ran; exact .nothing rfl fun _ _ never => by cases never
  | delete id =>
    simp only [serial] at ran
    split at ran
    · cases ran
      exact .nothing rfl fun _ _ never => by cases never
    · rename_i digest path
      cases ran
      exact .remove id digest rfl path rfl
  | append id | appendExchange id | setArchived id =>
    simp only [serial] at ran
    split at ran
    · cases ran
      exact .nothing rfl fun _ _ _ never => by cases never
    · split at ran
      · cases ran; exact .nothing rfl fun _ _ _ never => by cases never
      · rename_i old got
        rcases persistUnlocked_cases ran with ⟨same,error,failed⟩ | ⟨digest,path,written⟩
        · refine .nothing same fun _ _ _ never => ?_
          rw [show answer = .error error from failed] at never; cases never
        · cases written
          obtain ⟨d,target,found⟩ := get_ok got
          have home := keyed d old found
          rw [changed_id] at path; rw [home] at path
          cases path
          exact .change id old _ digest rfl target found (by rw [changed_id]; exact home) rfl rfl (changed_grown outside)

theorem Effect.keyed (effect : Effect files op answer after) (keyed : Keyed files) : Keyed after := by
  have inserted : ∀ digest conversation,pathFor conversation.id = .ok digest → Keyed (files.insert digest conversation) := by
    intro digest conversation path d c found
    rw [get_insert] at found
    split at found
    · rename_i same
      cases found
      exact same ▸ path
    · exact keyed d c found
  cases effect with
  | nothing same => exact same ▸ keyed
  | create _ conversation digest _ _ path written => exact written ▸ inserted digest conversation path
  | change _ _ conversation digest _ _ _ path _ written => exact written ▸ inserted digest conversation path
  | remove id digest _ _ written =>
    subst written
    intro d c found
    rw [get_erase] at found
    split at found
    · cases found
    · exact keyed d c found

def Creates (id : Str) (op : Op) (answer : Answer) : Prop :=
  ∃ title conversation,op = .create title ∧ answer = .ok (.conversation conversation) ∧ conversation.id = id

theorem Effect.gone (effect : Effect files op answer after) (path : pathFor id = .ok digest) (absent : files[digest]? = none)
    (uncreated : ¬Creates id op answer) : after[digest]? = none := by
  cases effect with
  | nothing same => exact same ▸ absent
  | create title conversation d asked answered home written =>
    subst written
    rw [get_insert,if_neg]
    · exact absent
    · rintro rfl
      exact uncreated ⟨title,conversation,asked,answered,(pathFor_ok home).trans (pathFor_ok path).symm⟩
  | change _ old _ d _ _ found _ _ written =>
    subst written
    rw [get_insert,if_neg]
    · exact absent
    · rintro rfl
      rw [absent] at found
      cases found
  | remove _ d _ _ written =>
    subst written
    rw [get_erase]
    split
    · rfl
    · exact absent

-- A conversation that is there stays, and keeps its messages, until it is deleted.
theorem Effect.stays (effect : Effect files op answer after) (path : pathFor id = .ok digest)
    (present : files[digest]? = some conversation) (uncreated : ¬Creates id op answer) (undeleted : op ≠ .delete id) :
    ∃ last,after[digest]? = some last ∧ conversation.messages <+: last.messages := by
  cases effect with
  | nothing same => exact ⟨conversation,same ▸ present,prefix_refl _⟩
  | create title conversation' d asked answered home written =>
    subst written
    refine ⟨conversation,?_,prefix_refl _⟩
    rw [get_insert,if_neg]
    · exact present
    · rintro rfl
      exact uncreated ⟨title,conversation',asked,answered,(pathFor_ok home).trans (pathFor_ok path).symm⟩
  | change _ old conversation' d _ _ found _ _ written grown =>
    subst written
    rw [get_insert]
    split
    · rename_i same
      subst same
      rw [present] at found
      cases found
      exact ⟨conversation',rfl,grown⟩
    · exact ⟨conversation,present,prefix_refl _⟩
  | remove other d asked home written =>
    subst written
    refine ⟨conversation,?_,prefix_refl _⟩
    rw [get_erase,if_neg]
    · exact present
    · rintro rfl
      have same := (pathFor_ok home).trans (pathFor_ok path).symm
      exact undeleted (same ▸ asked)

theorem sequence_keyed (ran : Sequence (Serial settings) opened before files) (keyed : Keyed opened) : Keyed files :=
  ran.invariant Keyed (fun _ _ _ _ kept now => (serial_effect now kept).keyed kept) keyed

theorem sequence_gone (ran : Sequence (Serial settings) opened later files) (keyed : Keyed opened)
    (path : pathFor id = .ok digest) (absent : opened[digest]? = none) (uncreated : ∀ e ∈ later,¬Creates id e.op e.answer) :
    files[digest]? = none := by
  have kept := ran.invariant (fun files => Keyed files ∧ files[digest]? = none) ?_ ⟨keyed,absent⟩
  · exact kept.2
  · intro e member s t kept now
    have effect := serial_effect now kept.1
    exact ⟨effect.keyed kept.1,effect.gone path kept.2 (uncreated e member)⟩

theorem sequence_stays (ran : Sequence (Serial settings) opened later files) (keyed : Keyed opened)
    (path : pathFor id = .ok digest) (present : opened[digest]? = some conversation)
    (uncreated : ∀ e ∈ later,¬Creates id e.op e.answer) (undeleted : ∀ e ∈ later,e.op ≠ .delete id) :
    ∃ last,files[digest]? = some last ∧ conversation.messages <+: last.messages := by
  have kept := ran.invariant (fun files => Keyed files ∧ ∃ last : Conversation,files[digest]? = some last ∧
    conversation.messages <+: last.messages) ?_ ⟨keyed,conversation,present,prefix_refl _⟩
  · exact kept.2
  · rintro e member s t ⟨keyed,now,found,grown⟩ step
    have effect := serial_effect step keyed
    obtain ⟨last,there,more⟩ := effect.stays path found (uncreated e member) (undeleted e member)
    exact ⟨effect.keyed keyed,last,there,grown.trans more⟩

theorem sequence_created (ran : Sequence (Serial settings) opened before files) (keyed : Keyed opened)
    (path : pathFor id = .ok digest) (present : files[digest]? = some conversation) :
    digest ∈ opened ∨ ∃ e ∈ before,Creates id e.op e.answer := by
  by_contra neither
  obtain ⟨absent,uncreated⟩ := not_or.mp neither
  have gone := sequence_gone ran keyed path (Std.ExtTreeMap.getElem?_eq_none absent)
    fun e member creates => uncreated ⟨e,member,creates⟩
  rw [present] at gone
  cases gone

theorem creates_made (ordered : Ordered settings s order) (member : e ∈ order) (creates : Creates id e.op e.answer) :
    ∃ call,s.calls[e.call]? = some call ∧ call.made = some id := by
  obtain ⟨effect,there,asked,answered⟩ := ordered.grown.real e member
  rw [getElem?_map,Option.map_eq_some_iff] at there
  obtain ⟨call,found,rfl⟩ := there
  obtain ⟨title,conversation,op,answer,rfl⟩ := creates
  refine ⟨call,found,?_⟩
  have fits := ordered.fits e.call call found
  obtain ⟨op',after,phase⟩ := call
  simp only [Task.effect] at asked answered
  cases asked.trans op
  rw [answer] at answered
  cases phase with
  | returned given => cases answered; rfl
  | reading names output missed =>
    obtain ⟨⟨_,never⟩,_⟩ := fits
    cases never
  | invoked | created | checked | locked | writing | unlinking => cases answered

theorem created_once (ordered : Ordered settings s (before ++ e :: later)) (fresh : Fresh s)
    (first : one ∈ before) (second : other ∈ later) (creates : Creates id one.op one.answer)
    (again : Creates id other.op other.answer) : False := by
  have listed : one ∈ before ++ e :: later := mem_append_left _ first
  have listed' : other ∈ before ++ e :: later := mem_append_right _ (mem_cons_of_mem e second)
  obtain ⟨call,there,made⟩ := creates_made ordered listed creates
  obtain ⟨call',there',made'⟩ := creates_made ordered listed' again
  have same := fresh.once _ _ call call' id there there' made made'
  have once := ordered.grown.once
  rw [map_append,nodup_append] at once
  refine once.2.2 one.call (mem_map_of_mem first) other.call ?_ same
  exact mem_cons_of_mem _ (mem_map_of_mem second)

theorem uncreated_later (ordered : Ordered settings s (before ++ e :: later)) (fresh : Fresh s) (path : pathFor id = .ok digest)
    (origin : digest ∈ s.opened ∨ ∃ e ∈ before,Creates id e.op e.answer) : ∀ e ∈ later,¬Creates id e.op e.answer := by
  intro other member creates
  rcases origin with old | ⟨one,first,created⟩
  · have listed : other ∈ before ++ e :: later := mem_append_right _ (mem_cons_of_mem e member)
    obtain ⟨call,there,made⟩ := creates_made ordered listed creates
    exact fresh.new call (mem_of_getElem? there) id digest made path old
  · exact created_once ordered fresh first member created creates

def Task.call (call : Task) : Linear.Call Op Answer :=
  ⟨call.op,call.after,match call.phase with
    | .returned answer => some answer
    | _ => none⟩

-- An order of the calls in which no append is lost before a later delete, and no
-- deleted conversation comes back; and no two creates return one conversation.
structure Consistent (settings : Settings) (s : State) (order : List (Entry Op Answer)) : Prop where
  sequential : Order (Serial settings) s.opened (s.calls.map Task.call) s.files order
  appended : ∀ (before : List (Entry Op Answer)) (e : Entry Op Answer) (later : List (Entry Op Answer)) (id : Str)
    (conversation : Conversation),order = before ++ e :: later → e.op.target = some id →
    e.answer = .ok (.conversation conversation) → (∀ other ∈ later,other.op ≠ .delete id) →
    ∃ digest last,pathFor id = .ok digest ∧ s.files[digest]? = some last ∧ conversation.messages <+: last.messages
  deleted : ∀ (before : List (Entry Op Answer)) (e : Entry Op Answer) (later : List (Entry Op Answer)) (id digest : Str),
    order = before ++ e :: later → e.op = .delete id → pathFor id = .ok digest →
    (digest ∈ s.opened ∨ ∃ e ∈ before,Creates id e.op e.answer) → s.files[digest]? = none
  created : ∀ (i j : Nat) (call other : Task) (title title' : Str) (conversation conversation' : Conversation),
    s.calls[i]? = some call → s.calls[j]? = some other → call.op = .create title → other.op = .create title' →
    call.phase = .returned (.ok (.conversation conversation)) → other.phase = .returned (.ok (.conversation conversation')) →
    conversation.id = conversation'.id → i = j

theorem ordered_sequential (ordered : Ordered settings s order) :
    Order (Serial settings) s.opened (s.calls.map Task.call) s.files order := by
  refine ordered.grown.ordered ?_ ?_
  · intro i
    rw [getElem?_map,getElem?_map,Option.map_map,Option.map_map]
    rfl
  · intro i call answer there answered
    rw [getElem?_map,Option.map_eq_some_iff] at there
    obtain ⟨task,found,rfl⟩ := there
    refine ⟨task.effect s.files,by rw [getElem?_map,found]; rfl,?_⟩
    simp only [Task.call] at answered
    split at answered
    · rename_i phase
      cases answered
      simp only [Task.effect,Task.outcome,phase]
    · cases answered

theorem ordered_consistent (ordered : Ordered settings s order) (fresh : Fresh s) (keyed : Keyed s.opened) :
    Consistent settings s order := by
  refine ⟨ordered_sequential ordered,?_,?_,?_⟩
  · rintro before e later id conversation rfl asked answered undeleted
    obtain ⟨files,ran,⟨after,now,rest⟩⟩ := ordered.grown.runs.split
    have known := sequence_keyed ran keyed
    have effect := serial_effect now known
    have still := effect.keyed known
    cases effect with
    | nothing _ unwritten => exact absurd answered (unwritten id conversation asked)
    | create title _ _ op => rw [op] at asked; cases asked
    | remove _ _ op => rw [op] at asked; cases asked
    | change other old written digest target path found home answer after _ =>
      rw [asked] at target
      cases target
      rw [answered] at answer
      cases answer
      have origin := sequence_created ran keyed path found
      subst after
      have present : (files.insert digest conversation)[digest]? = some conversation := by
        rw [get_insert,if_pos rfl]
      obtain ⟨last,there,grown⟩ := sequence_stays rest still path present
        (uncreated_later ordered fresh path origin) undeleted
      exact ⟨digest,last,path,there,grown⟩
  · rintro before e later id digest rfl asked path origin
    obtain ⟨files,ran,⟨after,now,rest⟩⟩ := ordered.grown.runs.split
    have known := sequence_keyed ran keyed
    have effect := serial_effect now known
    have absent : after[digest]? = none := by
      obtain ⟨outside,_,now⟩ := now
      rw [asked] at now
      simp only [serial,path] at now
      obtain ⟨_,rfl⟩ := Prod.mk.inj now
      rw [get_erase,if_pos rfl]
    exact sequence_gone rest (effect.keyed known) path absent (uncreated_later ordered fresh path origin)
  · intro i j call other title title' conversation conversation' there there' op op' phase phase' same
    refine fresh.once i j call other conversation.id there there' ?_ ?_
    · simp only [Task.made,op,phase]
    · simp only [Task.made,op',phase',same]

theorem advance_opened (ran : s.advance settings i call outside = some t) : t.opened = s.opened := by
  unfold State.advance at ran
  split at ran
  · unfold State.invoke at ran
    repeat' split at ran
    all_goals cases ran
    all_goals rfl
  · split at ran <;> cases ran
    rfl
  · split at ran <;> cases ran
    rfl
  · split at ran
    · cases ran
    · split at ran <;> cases ran <;> rfl
  · cases ran
    unfold State.rename
    split <;> rfl
  · cases ran
    unfold State.unlink
    split <;> rfl
  · cases ran
    unfold State.readNext
    split
    · rfl
    · split <;> rfl
  · cases ran

theorem history_linearizable (reached : Reached Start (Taken (act settings) (fine settings)) s) :
    ∃ order,Consistent settings s order := by
  have keyed : Keyed s.opened := by
    refine reached.invariant (fun s => Keyed s.opened) ?_ ?_
    · intro s ⟨opened,keyed,_⟩
      exact opened ▸ keyed
    · rintro s t _ kept ⟨action,_,ran⟩
      cases action with
      | call op => cases ran; exact kept
      | step i outside =>
        obtain ⟨call,_,ran⟩ := Option.bind_eq_some_iff.mp ran
        exact advance_opened ran ▸ kept
  obtain ⟨order,ordered⟩ := reached_ordered reached
  exact ⟨order,ordered_consistent ordered (reached_fresh reached) keyed⟩

instance decidableOk {ε α : Type} (result : Except ε α) (p : α → Prop) [DecidablePred p] : Decidable (∀ a,result = .ok a → p a) :=
  match result with
  | .error _ => .isTrue fun _ never => nomatch never
  | .ok a => decidable_of_iff (p a) ⟨fun holds _ same => Except.ok.inj same ▸ holds,fun all => all a rfl⟩

instance (priority := low) decidableSome {α : Type} (found : Option α) (p : α → Prop) [DecidablePred p] : Decidable (∀ a,found = some a → p a) :=
  match found with
  | none => .isTrue fun _ never => nomatch never
  | some a => decidable_of_iff (p a) ⟨fun holds _ same => Option.some.inj same ▸ holds,fun all => all a rfl⟩

instance (s : State) (id : Str) : Decidable (Unused s id) :=
  inferInstanceAs (Decidable ((∀ other ∈ s.calls,other.made ≠ some id) ∧ ∀ digest,pathFor id = .ok digest → digest ∉ s.opened))

instance (call : Task) (digest : Str) : Decidable (call.waitsFor digest) :=
  match call with
  | ⟨_,_,.reading names _ _⟩ => inferInstanceAs (Decidable (digest ∈ names))
  | ⟨_,_,.invoked⟩ | ⟨_,_,.created _⟩ | ⟨_,_,.checked⟩ | ⟨_,_,.locked⟩ | ⟨_,_,.writing _⟩ | ⟨_,_,.unlinking _⟩
  | ⟨_,_,.returned _⟩ => .isFalse fun never => never

instance (call : Task) : Decidable call.missed :=
  match call with
  | ⟨_,_,.reading _ _ missed⟩ => inferInstanceAs (Decidable (missed = true))
  | ⟨_,_,.invoked⟩ | ⟨_,_,.created _⟩ | ⟨_,_,.checked⟩ | ⟨_,_,.locked⟩ | ⟨_,_,.writing _⟩ | ⟨_,_,.unlinking _⟩
  | ⟨_,_,.returned _⟩ => .isFalse fun never => never

instance (call : Task) (digest : Str) : Decidable (call.writes digest) :=
  match call with
  | ⟨_,_,.writing conversation⟩ => inferInstanceAs (Decidable (pathFor conversation.id = .ok digest))
  | ⟨_,_,.invoked⟩ | ⟨_,_,.created _⟩ | ⟨_,_,.checked⟩ | ⟨_,_,.locked⟩ | ⟨_,_,.reading ..⟩ | ⟨_,_,.unlinking _⟩
  | ⟨_,_,.returned _⟩ => .isFalse fun never => never

instance (settings : Settings) (s : State) (outside : Outside) (call : Task) : Decidable (Allowed settings s outside call) :=
  match call with
  | ⟨.create title,_,.invoked⟩ => inferInstanceAs (Decidable (∀ conversation,
      newConversation settings title outside.now = .ok conversation → Unused s conversation.id))
  | ⟨.list _,_,.invoked⟩ | ⟨.get _,_,.invoked⟩ | ⟨.append ..,_,.invoked⟩ | ⟨.appendExchange ..,_,.invoked⟩
  | ⟨.setArchived ..,_,.invoked⟩ | ⟨.delete _,_,.invoked⟩ => .isTrue trivial
  | ⟨_,_,.writing conversation⟩ => inferInstanceAs (Decidable (∀ digest,pathFor conversation.id = .ok digest →
      ∀ other ∈ s.calls,other.missed → ¬other.waitsFor digest))
  | ⟨_,_,.unlinking digest⟩ => inferInstanceAs (Decidable (digest ∈ s.files ∧
      ∀ other ∈ s.calls,¬other.writes digest ∧ ¬other.waitsFor digest))
  | ⟨_,_,.created _⟩ | ⟨_,_,.checked⟩ | ⟨_,_,.locked⟩ | ⟨_,_,.reading ..⟩ | ⟨_,_,.returned _⟩ => .isTrue trivial

instance (settings : Settings) : ∀ s action,Decidable (fine settings s action)
  | _,.call _ => .isTrue trivial
  | s,.step i outside => inferInstanceAs (Decidable (∀ call,s.calls[i]? = some call → Allowed settings s outside call))

def everything : State → Action → Prop := fun _ _ => True
instance : ∀ s action,Decidable (everything s action) := fun _ _ => .isTrue trivial

def small : Settings := ⟨fun bytes => (hex bytes ++ replicate 64 '0').take 64,1,"history".toList⟩

def empty : State := ⟨∅,∅,none,[]⟩

theorem empty_start : Start empty := by
  refine ⟨rfl,?_,rfl,rfl⟩
  intro digest conversation found
  cases found

def demo : Str := "64656d6f003500310000000000000000000000000000000000000000000000000000".toList.take 64
def demoId : Str := "blake3:".toList ++ demo
def tick (i : Nat) : Action := .step i ⟨5,5,[]⟩

def busy : List Action :=
  [.call (.create "demo".toList),tick 0,tick 0,tick 0,.call (.append demoId "user".toList "hello".toList),tick 1,tick 1,
    .call (.list false),.step 2 ⟨5,5,[demo]⟩,tick 1,tick 1,tick 2,tick 2,.call (.delete demoId),tick 3,tick 3]

theorem busy_consistent : ∃ s : State,s.calls.map (·.hasReturned) = [true,true,true,true] ∧ s.files[demo]? = none ∧
    ∃ order,Consistent small s order := by
  have shown : (play (act small) (fine small) empty busy).any (fun s => decide
      (s.calls.map (·.hasReturned) = [true,true,true,true] ∧ s.files[demo]? = none)) = true := by
    decide
  obtain ⟨s,reached,seen⟩ := play_shows empty_start shown
  obtain ⟨returned,gone⟩ := of_decide_eq_true seen
  exact ⟨s,returned,gone,history_linearizable reached⟩

def back : List Action :=
  [.call (.create "demo".toList),tick 0,tick 0,tick 0,.call (.append demoId "user".toList "hello".toList),tick 1,tick 1,tick 1,
    .call (.delete demoId),tick 2,tick 2,tick 1]

def twice : List Action :=
  [.call (.create "demo".toList),tick 0,tick 0,tick 0,.call (.create "demo".toList),tick 1,tick 1,tick 1]

theorem deleted_comes_back : (∃ s,Reached Start (Taken (act small) everything) s ∧
      s.calls.map (fun call => (call.op,call.phase)) =
        [(.create "demo".toList,.returned (.ok (.conversation ⟨demoId,"demo".toList,5,5,[],false⟩))),
        (.append demoId "user".toList "hello".toList,
          .returned (.ok (.conversation ⟨demoId,"demo".toList,5,5,[⟨"user".toList,"hello".toList,5⟩],false⟩))),
        (.delete demoId,.returned (.ok .done))] ∧
      s.files.toList = [(demo,⟨demoId,"demo".toList,5,5,[⟨"user".toList,"hello".toList,5⟩],false⟩)]) ∧
    ∃ s,Reached Start (Taken (act small) everything) s ∧ s.calls.map (fun call => (call.op,call.phase)) =
      replicate 2 (.create "demo".toList,.returned (.ok (.conversation ⟨demoId,"demo".toList,5,5,[],false⟩))) := by
  constructor
  · have shown : (play (act small) everything empty back).any (fun s => decide
        (s.calls.map (fun call => (call.op,call.phase)) =
          [(.create "demo".toList,.returned (.ok (.conversation ⟨demoId,"demo".toList,5,5,[],false⟩))),
          (.append demoId "user".toList "hello".toList,
            .returned (.ok (.conversation ⟨demoId,"demo".toList,5,5,[⟨"user".toList,"hello".toList,5⟩],false⟩))),
          (.delete demoId,.returned (.ok .done))] ∧
        s.files.toList = [(demo,⟨demoId,"demo".toList,5,5,[⟨"user".toList,"hello".toList,5⟩],false⟩)])) = true := by
      decide
    obtain ⟨s,reached,seen⟩ := play_shows empty_start shown
    exact ⟨s,reached,of_decide_eq_true seen⟩
  · have shown : (play (act small) everything empty twice).any (fun s => decide
        (s.calls.map (fun call => (call.op,call.phase)) =
          replicate 2 (.create "demo".toList,.returned (.ok (.conversation ⟨demoId,"demo".toList,5,5,[],false⟩))))) = true := by
      decide
    obtain ⟨s,reached,seen⟩ := play_shows empty_start shown
    exact ⟨s,reached,of_decide_eq_true seen⟩

end HologramLive.History
