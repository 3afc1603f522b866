import HologramLive.Chat.Context
namespace HologramLive.Chat
open Tables Rpc Runs List History
open History (Answer Files pathFor)

variable {settings : History.Settings} {max : Nat} {s t : State} {i j n c : Nat} {send : Send} {actor : Actor} {key : Str} {turn : Turn}

-- A write of a conversation whose live session has answered turns: it archives, or
-- it is that of the first turn that is not in the history yet. And what is deleted
-- has no such session.
def Shows (s : State) (c : Nat) (call : History.Task) : Prop :=
  match call.phase with
  | .writing conversation => ∀ actor,Live s conversation.id actor → actor.context = [] ∨
    (∃ id archived,call.op = .setArchived id archived) ∨
    ∃ before turn later send,actor.context = before ++ turn :: later ∧ (∀ earlier ∈ before,s.recorded earlier.send = true) ∧
      s.sends[turn.send]? = some send ∧ send.phase = .recording c
  | .unlinking digest => ∀ actor,Live s ("blake3:".toList ++ digest) actor → actor.context = []
  | _ => True

def fine (s : State) : Action → Prop
  | .step i _ _ => ∀ (send : Send) (c : Nat),s.sends[i]? = some send → send.phase = .recording c →
    ∀ actor,Live s send.key actor → (∃ turn ∈ actor.context,turn.send = i) → s.recorded i = true
  | .history (.step c _) => ∀ (call : History.Task),s.history.calls[c]? = some call → Shows s c call
  | _ => True

def succeeded (call : History.Task) : Bool :=
  match call.phase with
  | .returned (.ok _) => true
  | _ => false

theorem recorded_recording (there : s.sends[j]? = some send) (phase : send.phase = .recording c) :
    s.recorded j = (s.history.calls[c]?).any succeeded := by
  obtain ⟨key,content,was⟩ := send
  subst phase
  simp only [State.recorded,there]
  cases found : s.history.calls[c]? with
  | none => rfl
  | some call =>
    obtain ⟨op,after,stage⟩ := call
    cases stage with
    | returned answer => cases answer <;> rfl
    | invoked | created | checked | locked | writing | unlinking | reading => rfl

theorem recorded_answered (there : s.sends[j]? = some send) (phase : send.phase = .answered reply) :
    s.recorded j = false := by
  obtain ⟨key,content,was⟩ := send
  subst phase
  simp only [State.recorded,there]

theorem recorded_done (there : s.sends[j]? = some send) (phase : send.phase = .done (.ok reply)) :
    s.recorded j = true := by
  obtain ⟨key,content,was⟩ := send
  subst phase
  simp only [State.recorded,there]

theorem record_agreed (wired : Wired s) (agreed : Agreed s) (there : s.sends[i]? = some send)
    (phase : send.phase = .answered reply) (ran : s.record settings i send reply = some t) : Agreed t := by
  have bound := (List.getElem?_eq_some_iff.mp there).1
  obtain ⟨history,called,ran⟩ := Option.map_eq_some_iff.mp ran
  cases called
  have now : t.sends[i]? = some {send with phase := .recording s.history.calls.length} := ran ▸ List.getElem?_set_self bound
  have elsewhere : ∀ j,j ≠ i → t.sends[j]? = s.sends[j]? := by
    intro j apart
    subst ran
    exact List.getElem?_set_ne fun same => apart same.symm
  have calls : t.history.calls = s.history.calls ++
      [⟨.appendExchange send.key send.content reply,s.history.doneCalls,.invoked⟩] := ran ▸ rfl
  have old : ∀ (c : Nat) (call : History.Task),s.history.calls[c]? = some call → t.history.calls[c]? = some call := by
    intro c call found
    rw [calls,List.getElem?_append_left (List.getElem?_eq_some_iff.mp found).1]
    exact found
  have last : t.history.calls[s.history.calls.length]? =
      some ⟨.appendExchange send.key send.content reply,s.history.doneCalls,.invoked⟩ := by
    rw [calls]
    simp
  refine agreed.frame (fun _ _ is => live_same (ran ▸ rfl) (ran ▸ rfl) is) ?_ ?_ (ran ▸ rfl) ?_
  · intro key actor turn was member
    by_cases mine : turn.send = i
    · rw [mine,recorded_answered there phase,recorded_recording now rfl,last]
      rfl
    · obtain ⟨other,found,_,_,answered | ⟨c,call,stage,listed,_⟩ | ⟨_,done⟩⟩ := agreed.settled key actor was turn member
      · rw [recorded_answered found answered]
        exact recorded_answered ((elsewhere _ mine).trans found) answered
      · rw [recorded_recording found stage,recorded_recording ((elsewhere _ mine).trans found) stage,listed,old c call listed]
      · rw [recorded_done found done]; exact recorded_done ((elsewhere _ mine).trans found) done
  · intro key actor turn was member
    obtain ⟨other,found,owner,prompt,phases⟩ := agreed.settled key actor was turn member
    by_cases mine : turn.send = i
    · rw [mine,there] at found
      cases found
      rcases phases with answered | ⟨_,_,stage,_⟩ | ⟨_,done⟩
      · rw [phase] at answered; cases answered
        refine ⟨{send with phase := .recording s.history.calls.length},?_,owner,prompt,.inr (.inl ⟨_,_,rfl,last,?_⟩)⟩
        · rw [mine]; exact now
        · rw [owner,prompt]
      · rw [phase] at stage; cases stage
      · rw [phase] at done; cases done
    · refine ⟨other,(elsewhere _ mine).trans found,owner,prompt,?_⟩
      rcases phases with answered | ⟨c,call,stage,listed,op⟩ | done
      · exact .inl answered
      · exact .inr (.inl ⟨c,call,stage,old c call listed,op⟩)
      · exact .inr (.inr done)
  · intro c call conversation id found stage target
    rw [calls] at found
    by_cases before : c < s.history.calls.length
    · rw [List.getElem?_append_left before] at found
      exact agreed.writing c call conversation id found stage target
    · rw [List.getElem?_append_right (Nat.le_of_not_lt before),List.getElem?_singleton] at found
      split at found <;> cases found
      cases stage

theorem finish_agreed (agreed : Agreed s) (there : s.sends[i]? = some send) (phase : send.phase = .recording c)
    (allowed : ∀ actor,Live s send.key actor → (∃ turn ∈ actor.context,turn.send = i) → s.recorded i = true)
    (ran : s.finish i send c = some t) : Agreed t := by
  have bound := (List.getElem?_eq_some_iff.mp there).1
  unfold State.finish at ran
  split at ran
  · rename_i op after answer call
    cases ran
    have now : (s.setPhase i send (.done answer)).sends[i]? = some {send with phase := .done answer} :=
      List.getElem?_set_self bound
    have elsewhere : ∀ j,j ≠ i → (s.setPhase i send (.done answer)).sends[j]? = s.sends[j]? :=
      fun j apart => List.getElem?_set_ne fun same => apart same.symm
    -- A live session that has the turn sees it recorded.
    have good : ∀ key actor turn,Live s key actor → turn ∈ actor.context → turn.send = i →
        s.recorded i = true ∧ ∃ reply,answer = .ok reply := by
      intro key actor turn was member mine
      obtain ⟨other,found,owner,_⟩ := agreed.settled key actor was turn member
      rw [mine,there] at found
      cases found
      have known := allowed actor (owner.symm ▸ was) ⟨turn,member,mine⟩
      refine ⟨known,?_⟩
      rw [recorded_recording there phase,call] at known
      cases answer with
      | ok reply => exact ⟨reply,rfl⟩
      | error error => cases known
    refine agreed.frame (fun _ _ is => live_same rfl rfl is) ?_ ?_ rfl agreed.writing
    · intro key actor turn was member
      by_cases mine : turn.send = i
      · obtain ⟨known,reply,rfl⟩ := good key actor turn was member mine
        rw [mine,known]; exact recorded_done now rfl
      · exact recorded_same (elsewhere _ mine) rfl
    · intro key actor turn was member
      obtain ⟨other,found,owner,prompt,phases⟩ := agreed.settled key actor was turn member
      by_cases mine : turn.send = i
      · obtain ⟨_,reply,rfl⟩ := good key actor turn was member mine
        rw [mine,there] at found; cases found
        refine ⟨{send with phase := .done (.ok reply)},?_,owner,prompt,.inr (.inr ⟨reply,rfl⟩)⟩
        rw [mine]; exact now
      · exact ⟨other,(elsewhere _ mine).trans found,owner,prompt,phases⟩
  · cases ran

section History
variable {h k : History.State} {call : History.Task}

variable {digest : Str}

theorem unsee_succeeded : succeeded (call.unsee digest) = succeeded call := by
  obtain ⟨op,after,phase⟩ := call
  cases phase <;> rfl

theorem moved_recorded (settled : Settled s key turn) (moved : History.Moved s.history c call k)
    (other : ∀ send,s.sends[turn.send]? = some send → send.phase ≠ .recording c) :
    ({s with history := k} : State).recorded turn.send = s.recorded turn.send := by
  obtain ⟨send,found,_,_,answered | ⟨d,_,stage,_⟩ | ⟨_,done⟩⟩ := settled
  · have after : ({s with history := k} : State).sends[turn.send]? = some send := found
    rw [recorded_answered found answered,recorded_answered after answered]
  · have after : ({s with history := k} : State).sends[turn.send]? = some send := found
    have apart : d ≠ c := by
      rintro rfl
      exact other send found stage
    rw [recorded_recording found stage,recorded_recording after stage]
    rcases moved_elsewhere moved apart with same | ⟨digest,same⟩
    · exact congrArg _ same
    · have marked : (k.calls[d]?).any succeeded = (s.history.calls[d]?).any succeeded := by
        rw [same]
        cases s.history.calls[d]? with
        | none => rfl
        | some task => exact unsee_succeeded
      exact marked
  · have after : ({s with history := k} : State).sends[turn.send]? = some send := found
    rw [recorded_done found done,recorded_done after done]

theorem moved_settled (settled : Settled s key turn) (calls : ∀ (d : Nat) (call : History.Task),s.history.calls[d]? = some call →
    ∃ later,k.calls[d]? = some later ∧ later.op = call.op) : Settled ({s with history := k} : State) key turn := by
  obtain ⟨send,found,owner,prompt,phases⟩ := settled
  refine ⟨send,found,owner,prompt,?_⟩
  rcases phases with answered | ⟨d,task,stage,listed,op⟩ | done
  · exact .inl answered
  · obtain ⟨later,there,same⟩ := calls d task listed
    exact .inr (.inl ⟨d,later,stage,there,same.trans op⟩)
  · exact .inr (.inr done)

theorem recording_op (there : s.history.calls[c]? = some call) (settled : Settled s key turn)
    (found : s.sends[turn.send]? = some send) (stage : send.phase = .recording c) :
    call.op = .appendExchange key turn.prompt turn.reply := by
  obtain ⟨other,found',_,_,phases⟩ := settled
  rw [found] at found'
  cases found'
  rcases phases with answered | ⟨d,task,recording,listed,op⟩ | ⟨_,done⟩
  · rw [stage] at answered
    cases answered
  · rw [stage] at recording
    cases recording
    rw [there] at listed
    cases listed
    exact op
  · rw [stage] at done
    cases done

theorem quiet_agreed (agreed : Agreed s) (there : s.history.calls[c]? = some call)
    (moved : History.Moved s.history c call k) {next : History.Phase} {lock : Option Nat}
    (after : k = {s.history.setPhase c call next with lock := lock})
    (fails : call.op.target.isSome → succeeded call = false ∧ succeeded {call with phase := next} = false)
    (writes : ∀ conversation id,next = .writing conversation → call.op.target = some id → Continues s call conversation id) :
    Agreed ({s with history := k} : State) := by
  have calls : ∀ (d : Nat) (task : History.Task),s.history.calls[d]? = some task → ∃ later,k.calls[d]? = some later ∧ later.op = task.op := by
    intro d task listed
    subst after
    by_cases same : d = c
    · subst same
      rw [there] at listed
      cases listed
      exact ⟨_,History.setPhase_here ⟨call,there⟩,rfl⟩
    · exact ⟨task,(History.setPhase_elsewhere same).trans listed,rfl⟩
  have here : k.calls[c]? = some {call with phase := next} := by
    subst after
    exact History.setPhase_here ⟨call,there⟩
  refine agreed.frame (fun _ _ is => live_same rfl rfl is) ?_ ?_ (after ▸ rfl) ?_
  · intro key actor turn was member
    have settled := agreed.settled key actor was turn member
    by_cases mine : ∃ send,s.sends[turn.send]? = some send ∧ send.phase = .recording c
    · obtain ⟨send,found,stage⟩ := mine
      have present : ({s with history := k} : State).sends[turn.send]? = some send := found
      rw [recorded_recording found stage,recorded_recording present stage,there]
      have now : ({s with history := k} : State).history.calls[c]? = some {call with phase := next} := here
      have writer : call.op.target.isSome := by
        rw [recording_op there settled found stage]; rfl
      obtain ⟨before,later⟩ := fails writer
      rw [now]
      simp only [Option.any_some,before,later]
    · exact moved_recorded settled moved fun send found stage => mine ⟨send,found,stage⟩
  · intro key actor turn was member
    exact moved_settled (agreed.settled key actor was turn member) calls
  · intro d task conversation id found stage target
    by_cases same : d = c
    · subst same
      have now : some {call with phase := next} = some task := here.symm.trans found
      cases now
      exact writes conversation id stage target
    · have old : s.history.calls[d]? = some task := by
        subst after; exact (History.setPhase_elsewhere same).symm.trans found
      exact agreed.writing d task conversation id old stage target

theorem path_unique (path : pathFor one = .ok digest) (path' : pathFor other = .ok digest) : one = other :=
  (pathFor_ok path).trans (pathFor_ok path').symm

variable {outside : History.Outside}

theorem loads_continues (wired : Wired s) (agreed : Agreed s) {id : Str}
    (got : History.get s.history.files id = .ok before) : Continues s call (History.changed outside before call.op) id := by
  obtain ⟨digest,path,found⟩ := get_ok got
  have home := wired.locks.keyed digest before found
  refine ⟨before,outside,digest,rfl,path,by rw [changed_id]; exact home,?_⟩
  intro actor is
  by_cases empty : s.kept actor = []
  · rw [empty]
    exact ends_nil _
  · obtain ⟨digest',conversation,path',found',ends⟩ := agreed.shown id actor is empty
    rw [path] at path'
    cases path'
    rw [found] at found'
    cases found'
    exact ends

theorem unlink_agreed (wired : Wired s) (agreed : Agreed s) (there : s.history.calls[c]? = some call)
    (was : call.phase = .unlinking digest) (allowed : ∀ actor,Live s ("blake3:".toList ++ digest) actor → actor.context = [])
    (moved : History.Moved s.history c call k)
    (calls : ∀ (d : Nat) (task : History.Task),s.history.calls[d]? = some task → ∃ later,k.calls[d]? = some later ∧ later.op = task.op)
    (after : k = {(s.history.touch digest).setPhase c call (.returned (.ok .done)) with files := s.history.files.erase digest}) :
    Agreed ({s with history := k} : State) := by
  have recorded : ∀ key actor turn,Live s key actor → turn ∈ actor.context →
      ({s with history := k} : State).recorded turn.send = s.recorded turn.send := by
    intro key actor turn is member
    refine moved_recorded (agreed.settled key actor is turn member) moved fun send found stage => ?_
    obtain ⟨task,reply,listed,op⟩ := wired.calls _ c send found stage
    rw [there] at listed
    cases listed
    have proper := wired.locks.proper call (mem_of_getElem? there) (by rw [op]; rfl)
    rw [was] at proper
    exact proper
  have kept : ∀ key actor,Live s key actor → ({s with history := k} : State).kept actor = s.kept actor :=
    fun key actor is => takeWhile_same fun turn member => recorded key actor turn is member
  refine ⟨?_,?_,agreed.distinct,?_,?_⟩
  · intro key actor is turn member
    exact moved_settled (agreed.settled key actor is turn member) calls
  · intro key actor is
    refine (agreed.first key actor is).imp_of_mem ?_
    intro one later first second ordered
    rw [recorded key actor one is first,recorded key actor later is second]
    exact ordered
  · intro key actor is some_
    rw [kept key actor is] at some_ ⊢
    obtain ⟨d,conversation,path,found,ends⟩ := agreed.shown key actor is some_
    refine ⟨d,conversation,path,?_,ends⟩
    subst after
    have apart : digest ≠ d := by
      rintro rfl
      have key_eq := pathFor_ok path
      have empty := allowed actor (key_eq ▸ is)
      simp [State.kept,empty] at some_
    simp only [get_erase,if_neg apart]
    exact found
  · intro d task conversation id found stage target
    have old : s.history.calls[d]? = some task := by
      subst after
      by_cases same : d = c
      · subst same
        have now := (@History.setPhase_here (s.history.touch digest) d call (.returned (.ok .done))
          ⟨call.unsee digest,by rw [History.touch_here,there]; rfl⟩).symm.trans found
        cases now; cases stage
      · have marked : (s.history.calls[d]?).map (History.Task.unsee digest) = some task :=
          History.touch_here.symm.trans ((History.setPhase_elsewhere same).symm.trans found)
        obtain ⟨⟨op,before,phase⟩,listed,rfl⟩ := Option.map_eq_some_iff.mp marked
        cases phase with
        | writing => exact listed
        | invoked | created | checked | locked | unlinking | reading | returned => cases stage
    obtain ⟨before,outside,d',changed,path,home,ends⟩ := agreed.writing d task conversation id old stage target
    refine ⟨before,outside,d',changed,path,home,?_⟩
    intro actor is
    rw [kept id actor is]
    exact ends actor is

theorem takeWhile_stops {α : Type} {before later : List α} {p : α → Bool} {a : α} (all : ∀ b ∈ before,p b = true)
    (stops : p a = false) : (before ++ a :: later).takeWhile p = before := by
  rw [takeWhile_append_of_pos all,takeWhile_cons,stops]
  simp

theorem takeWhile_prefix {α : Type} {before later : List α} {p : α → Bool} (all : ∀ b ∈ before,p b = true)
    (none_ : ∀ b ∈ later,p b = false) : (before ++ later).takeWhile p = before := by
  cases later with
  | nil =>
    have whole := @takeWhile_append_of_pos _ p before [] all
    simpa using whole
  | cons a rest => exact takeWhile_stops all (none_ a mem_cons_self)

theorem ends_append
    (ends : Ends messages turns) (next : later.map (fun message => (message.role,message.content)) = turn.exchange) :
    Ends (messages ++ later) (turns ++ [turn]) := by
  obtain ⟨before,same⟩ := ends
  refine ⟨before,?_⟩
  rw [flatMap_append,flatMap_singleton,map_append,←same,next,append_assoc]

variable {conversation : Conversation}

theorem exchange_call (agreed : Agreed s) (there : s.history.calls[c]? = some call)
    (was : call.phase = .writing conversation) (path : pathFor conversation.id = .ok digest)
    (settled : Settled s key turn) (found : s.sends[turn.send]? = some send) (stage : send.phase = .recording c) :
    key = conversation.id ∧ call.op = .appendExchange key turn.prompt turn.reply := by
  have op := recording_op there settled found stage
  obtain ⟨_,_,d,_,path',home,_⟩ := agreed.writing c call conversation key there was (by rw [op]; rfl)
  rw [path] at home
  cases home
  exact ⟨path_unique path' path,op⟩

theorem rename_agreed (wired : Wired s) (agreed : Agreed s) (there : s.history.calls[c]? = some call)
    (was : call.phase = .writing conversation) (path : pathFor conversation.id = .ok digest)
    (allowed : ∀ actor,Live s conversation.id actor → actor.context = [] ∨ (∃ id archived,call.op = .setArchived id archived) ∨
      ∃ before turn later send,actor.context = before ++ turn :: later ∧ (∀ earlier ∈ before,s.recorded earlier.send = true) ∧
        s.sends[turn.send]? = some send ∧ send.phase = .recording c) (moved : History.Moved s.history c call k)
    (calls : ∀ (d : Nat) (task : History.Task),s.history.calls[d]? = some task → ∃ later,k.calls[d]? = some later ∧ later.op = task.op)
    (after : k = {(s.history.touch digest).setPhase c call (.returned (.ok (.conversation conversation))) with
      files := s.history.files.insert digest conversation
      lock := none}) : Agreed ({s with history := k} : State) := by
  have lock := wired.locks.held c call there (by rw [was]; rfl)
  have here : k.calls[c]? = some {call with phase := .returned (.ok (.conversation conversation))} := by
    subst after
    exact History.setPhase_here ⟨call.unsee digest,by rw [History.touch_here,there]; rfl⟩
  have mine : ∀ (turn : Turn) (send : Send),s.sends[turn.send]? = some send → send.phase = .recording c →
      s.recorded turn.send = false ∧ ({s with history := k} : State).recorded turn.send = true := by
    intro turn send found stage
    have present : ({s with history := k} : State).sends[turn.send]? = some send := found
    have now : ({s with history := k} : State).history.calls[c]? =
      some {call with phase := .returned (.ok (.conversation conversation))} := here
    rw [recorded_recording found stage,recorded_recording present stage,there,now]
    refine ⟨?_,rfl⟩
    simp only [Option.any_some,succeeded,was]
  have elsewhere : ∀ key actor,Live s key actor → key ≠ conversation.id → ∀ turn ∈ actor.context,
      ({s with history := k} : State).recorded turn.send = s.recorded turn.send := by
    intro key actor is apart turn member
    have settled := agreed.settled key actor is turn member
    exact moved_recorded settled moved fun send found stage => apart (exchange_call agreed there was path settled found stage).1
  -- The session of the conversation: no turn of it is being written, or the first that is not recorded.
  have home : ∀ actor,Live s conversation.id actor →
      (∀ turn ∈ actor.context,({s with history := k} : State).recorded turn.send = s.recorded turn.send) ∧
        (s.kept actor = [] ∨ ∃ id archived,call.op = .setArchived id archived) ∨
      ∃ before turn later,actor.context = before ++ turn :: later ∧ s.kept actor = before ∧
        ({s with history := k} : State).kept actor = before ++ [turn] ∧
        call.op = .appendExchange conversation.id turn.prompt turn.reply ∧
        (∀ one ∈ before ++ [turn],({s with history := k} : State).recorded one.send = true) ∧
        ∀ one ∈ later,({s with history := k} : State).recorded one.send = false := by
    intro actor is
    rcases allowed actor is with empty | ⟨id,archived,op⟩ | ⟨before,turn,later,send,shape,earlier,found,stage⟩
    · refine .inl ⟨?_,.inl (by simp [State.kept,empty])⟩
      intro turn member
      rw [empty] at member
      cases member
    · refine .inl ⟨?_,.inr ⟨id,archived,op⟩⟩
      intro turn member
      have settled := agreed.settled conversation.id actor is turn member
      refine moved_recorded settled moved fun send found stage => ?_
      have exchange := (exchange_call agreed there was path settled found stage).2
      rw [op] at exchange
      cases exchange
    · have among : turn ∈ actor.context := by
        rw [shape]; simp
      obtain ⟨unrecorded,recorded⟩ := mine turn send found stage
      obtain ⟨_,op⟩ := exchange_call agreed there was path (agreed.settled conversation.id actor is turn among) found stage
      have distinct := agreed.distinct conversation.id actor is
      rw [shape,map_append,map_cons,nodup_append] at distinct
      have same : ∀ one ∈ actor.context,one.send ≠ turn.send →
          ({s with history := k} : State).recorded one.send = s.recorded one.send := by
        intro one member apart
        refine moved_recorded (agreed.settled conversation.id actor is one member) moved fun send' found' stage' => ?_
        exact apart (wired.apart _ _ c send' send found' found stage' stage)
      have first : ∀ one ∈ before,({s with history := k} : State).recorded one.send = true := by
        intro one member
        have listed : one ∈ actor.context := by
          rw [shape]; exact mem_append_left _ member
        have apart : one.send ≠ turn.send :=
          distinct.2.2 one.send (mem_map_of_mem member) turn.send mem_cons_self
        rw [same one listed apart]; exact earlier one member
      have last : ∀ one ∈ later,({s with history := k} : State).recorded one.send = false := by
        intro one member
        have listed : one ∈ actor.context := by
          rw [shape]; exact mem_append_right _ (mem_cons_of_mem turn member)
        have apart : one.send ≠ turn.send := by
          intro eq; exact (nodup_cons.mp distinct.2.1).1 (eq ▸ mem_map_of_mem member)
        rw [same one listed apart]
        have ordered := agreed.first conversation.id actor is
        rw [shape,pairwise_append] at ordered
        by_contra known
        have now := (pairwise_cons.mp ordered.2.1).1 one member (by simpa using known)
        rw [unrecorded] at now; cases now
      have all : ∀ one ∈ before ++ [turn],({s with history := k} : State).recorded one.send = true := by
        intro one member
        rcases mem_append.mp member with old | new
        · exact first one old
        · rw [mem_singleton.mp new]; exact recorded
      refine .inr ⟨before,turn,later,shape,?_,?_,op,all,last⟩
      · unfold State.kept; rw [shape]
        exact takeWhile_stops earlier unrecorded
      · have regrouped : actor.context = (before ++ [turn]) ++ later := by
          rw [shape]; simp
        unfold State.kept; rw [regrouped]
        exact takeWhile_prefix all last
  have kept : ∀ key actor,Live s key actor → (∀ turn ∈ actor.context,
      ({s with history := k} : State).recorded turn.send = s.recorded turn.send) →
      ({s with history := k} : State).kept actor = s.kept actor :=
    fun key actor is same => takeWhile_same same
  have file : k.files = s.history.files.insert digest conversation := by rw [after]
  have first : ∀ actor : Actor,(∀ turn ∈ actor.context,({s with history := k} : State).recorded turn.send = s.recorded turn.send) →
      (actor.context.Pairwise fun one later => s.recorded later.send = true → s.recorded one.send = true) →
      actor.context.Pairwise fun one later => ({s with history := k} : State).recorded later.send = true →
        ({s with history := k} : State).recorded one.send = true := by
    intro actor same ordered
    refine ordered.imp_of_mem ?_
    intro one later before_ after_ implied
    rw [same one before_,same later after_]
    exact implied
  refine ⟨?_,?_,agreed.distinct,?_,?_⟩
  · intro key actor is turn member
    exact moved_settled (agreed.settled key actor is turn member) calls
  · intro key actor is
    by_cases mine : key = conversation.id
    · subst mine
      rcases home actor is with ⟨same,_⟩ | ⟨before,turn,later,shape,_,_,_,all,last⟩
      · exact first actor same (agreed.first _ actor is)
      · have regrouped : actor.context = (before ++ [turn]) ++ later := by
          rw [shape]; simp
        rw [regrouped,pairwise_append]
        refine ⟨pairwise_of_forall_mem_list fun one member _ _ _ => all one member,
          pairwise_of_forall_mem_list fun _ _ other member known => ?_,fun one member _ _ _ => all one member⟩
        rw [last other member] at known; cases known
    · exact first actor (elsewhere key actor is mine) (agreed.first key actor is)
  · intro key actor is some_
    by_cases mine : key = conversation.id
    · subst mine
      refine ⟨digest,conversation,path,by rw [file,get_insert,if_pos rfl],?_⟩
      rcases home actor is with ⟨same,empty | ⟨id,archived,op⟩⟩ | ⟨before,turn,later,_,old,new,op,_⟩
      · rw [kept _ actor is same,empty] at some_; exact absurd rfl some_
      · rw [kept _ actor is same]
        obtain ⟨earlier,outside,d,changed,path',home',ends⟩ := agreed.writing c call conversation id there was (by rw [op]; rfl)
        rw [path] at home'; cases home'
        have mine := path_unique path' path
        subst mine; rw [changed,op]
        exact ends actor is
      · rw [new]
        obtain ⟨earlier,outside,_,changed,_,_,ends⟩ := agreed.writing c call conversation conversation.id there was (by rw [op]; rfl)
        have before_ := ends actor is
        rw [old] at before_; rw [changed,op]
        exact ends_append before_ rfl
    · have same := kept key actor is (elsewhere key actor is mine)
      rw [same] at some_ ⊢
      obtain ⟨d,shown,path',found,ends⟩ := agreed.shown key actor is some_
      refine ⟨d,shown,path',?_,ends⟩
      have apart : digest ≠ d := by
        rintro rfl
        exact mine (path_unique path' path)
      rw [file,get_insert,if_neg apart]
      exact found
  · intro d task other id found stage target
    by_cases same : d = c
    · subst same
      have now := here.symm.trans found
      cases now
      cases stage
    · have marked : (s.history.calls[d]?).map (History.Task.unsee digest) = some task := by
        subst after
        exact History.touch_here.symm.trans ((History.setPhase_elsewhere same).symm.trans found)
      obtain ⟨old,listed,rfl⟩ := Option.map_eq_some_iff.mp marked
      have holds : (old.unsee digest).phase.holds = true := by
        rw [stage]; rfl
      rw [unsee_holds] at holds
      have held := wired.locks.held d old listed holds
      rw [lock] at held
      exact absurd (Option.some.inj held).symm same

theorem call_agreed (agreed : Agreed s) (op : History.Op) (called : History.act settings s.history (.call op) = some k) :
    Agreed ({s with history := k} : State) := by
  have calls : k.calls = s.history.calls ++ [⟨op,s.history.doneCalls,.invoked⟩] := by
    cases called
    rfl
  have files : k.files = s.history.files := by
    cases called
    rfl
  have old : ∀ (c : Nat) (task : History.Task),s.history.calls[c]? = some task → k.calls[c]? = some task := by
    intro c task found
    rw [calls,List.getElem?_append_left (List.getElem?_eq_some_iff.mp found).1]
    exact found
  refine agreed.frame (fun _ _ is => live_same rfl rfl is) ?_ ?_ files ?_
  · intro key actor turn was member
    obtain ⟨send,found,_,_,answered | ⟨c,task,stage,listed,_⟩ | ⟨_,done⟩⟩ := agreed.settled key actor was turn member
    · rw [recorded_answered found answered]
      exact recorded_answered found answered
    · have present : ({s with history := k} : State).sends[turn.send]? = some send := found
      rw [recorded_recording found stage,recorded_recording present stage,listed]
      exact congrArg _ (old c task listed)
    · rw [recorded_done found done]
      exact recorded_done found done
  · intro key actor turn was member
    exact moved_settled (agreed.settled key actor was turn member) fun d task listed => ⟨task,old d task listed,rfl⟩
  · intro c task conversation id found stage target
    have found : k.calls[c]? = some task := found
    rw [calls] at found
    by_cases before : c < s.history.calls.length
    · rw [List.getElem?_append_left before] at found
      exact agreed.writing c task conversation id found stage target
    · rw [List.getElem?_append_right (Nat.le_of_not_lt before),List.getElem?_singleton] at found
      split at found <;> cases found
      cases stage

theorem step_agreed (wired : Wired s) (agreed : Agreed s)
    (allowed : ∀ (call : History.Task),s.history.calls[c]? = some call → Shows s c call)
    (ran : History.act settings s.history (.step c outside) = some k) : Agreed ({s with history := k} : State) := by
  have calls : ∀ (d : Nat) (task : History.Task),s.history.calls[d]? = some task →
      ∃ later,k.calls[d]? = some later ∧ later.op = task.op := act_calls ran
  obtain ⟨call,there,ran⟩ := Option.bind_eq_some_iff.mp ran
  have moved := advance_moved ran
  have allowed := allowed call there
  have proper := wired.locks.proper call (mem_of_getElem? there)
  have again := moved
  cases moved with
  | passes next after unlocked begins early =>
    refine @quiet_agreed s c k call agreed there again next s.history.lock after ?_ ?_
    · intro writer
      have stage := proper writer
      cases phase : call.phase with
      | invoked =>
        refine ⟨by simp only [succeeded,phase],?_⟩
        rcases begins phase writer with rfl | ⟨error,rfl⟩ <;> rfl
      | created | unlinking | reading => rw [phase] at stage; exact stage.elim
      | checked | locked | writing | returned => rw [phase] at early; cases early
    · rintro conversation id rfl
      cases unlocked
  | takes next free after waited =>
    refine @quiet_agreed s c k call agreed there again next (some c) after ?_ ?_
    · intro writer
      rcases waited with ⟨phase,rfl⟩ | ⟨conversation,phase,rfl⟩
      · exact ⟨by simp only [succeeded,phase],rfl⟩
      · exact ⟨by simp only [succeeded,phase],rfl⟩
    · rintro conversation id rfl target
      rcases waited with ⟨_,never⟩ | ⟨_,phase,_⟩
      · cases never
      · have stage := proper (by rw [target]; rfl)
        rw [phase] at stage; exact stage.elim
  | loads id before outside was target got after =>
    refine @quiet_agreed s c k call agreed there again _ s.history.lock after ?_ ?_
    · intro _
      exact ⟨by simp only [succeeded,was],rfl⟩
    · intro conversation other same target'
      cases same
      rw [target] at target'
      cases target'
      exact loads_continues wired agreed got
  | fails error was after =>
    refine @quiet_agreed s c k call agreed there again _ none after ?_ ?_
    · intro _
      rcases was with was | ⟨_,was⟩ <;> exact ⟨by simp only [succeeded,was],rfl⟩
    · intro conversation id same
      cases same
  | renames conversation digest was path after =>
    simp only [Shows,was] at allowed
    exact rename_agreed wired agreed there was path allowed again calls after
  | unlinks digest was after =>
    simp only [Shows,was] at allowed
    exact unlink_agreed wired agreed there was allowed again calls after

end History

end HologramLive.Chat
