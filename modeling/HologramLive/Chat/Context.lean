import HologramLive.Chat.Wiring
import HologramLive.History.Steps
namespace HologramLive.Chat
open Tables Rpc Runs List
open History (Answer Files pathFor)

variable {settings : History.Settings} {max : Nat} {s t : State} {i j n c : Nat} {send : Send} {actor : Actor} {key : Str} {turn : Turn}

-- The turns of a session up to the first whose exchange is not in the history.
def State.kept (s : State) (actor : Actor) : List Turn := actor.context.takeWhile fun turn => s.recorded turn.send

def Settled (s : State) (key : Str) (turn : Turn) : Prop :=
  ∃ send,s.sends[turn.send]? = some send ∧ send.key = key ∧ send.content = turn.prompt ∧
    (send.phase = .answered turn.reply ∨
      (∃ c call,send.phase = .recording c ∧ s.history.calls[c]? = some call ∧
        call.op = .appendExchange key turn.prompt turn.reply) ∨
      ∃ reply,send.phase = .done (.ok reply))

-- What is about to be written continues what the live session has in the history.
def Continues (s : State) (call : History.Task) (conversation : Conversation) (id : Str) : Prop :=
  ∃ before outside digest,conversation = History.changed outside before call.op ∧ pathFor id = .ok digest ∧
    pathFor conversation.id = .ok digest ∧ ∀ actor,Live s id actor → Ends before.messages (s.kept actor)

-- The recorded turns of a live session come first, and end the conversation.
structure Agreed (s : State) : Prop where
  settled : ∀ (key : Str) (actor : Actor),Live s key actor → ∀ turn ∈ actor.context,Settled s key turn
  first : ∀ (key : Str) (actor : Actor),Live s key actor →
    actor.context.Pairwise fun one later => s.recorded later.send = true → s.recorded one.send = true
  distinct : ∀ (key : Str) (actor : Actor),Live s key actor → (actor.context.map (·.send)).Nodup
  shown : ∀ (key : Str) (actor : Actor),Live s key actor → s.kept actor ≠ [] →
    ∃ digest conversation,pathFor key = .ok digest ∧ s.history.files[digest]? = some conversation ∧
      Ends conversation.messages (s.kept actor)
  writing : ∀ (c : Nat) (call : History.Task) (conversation : Conversation) (id : Str),s.history.calls[c]? = some call →
    call.phase = .writing conversation → call.op.target = some id → Continues s call conversation id

theorem ends_nil (messages : List ConversationMessage) : Ends messages [] := nil_suffix

theorem takeWhile_same {α : Type} {l : List α} {p q : α → Bool} (same : ∀ a ∈ l,p a = q a) : l.takeWhile p = l.takeWhile q := by
  induction l with
  | nil => rfl
  | cons a rest ih =>
    have here := same a mem_cons_self
    have later := ih fun b member => same b (mem_cons_of_mem a member)
    simp only [takeWhile_cons,here,later]

theorem takeWhile_concat {α : Type} {l : List α} {p : α → Bool} {a : α} (stops : p a = false) :
    (l ++ [a]).takeWhile p = l.takeWhile p := by
  induction l with
  | nil => simp [stops]
  | cons b rest ih =>
    simp only [cons_append,takeWhile_cons,ih]

theorem Agreed.frame (agreed : Agreed s) (live : ∀ (key : Str) (actor : Actor),Live t key actor → actor.context = [] ∨
      ∃ old,Live s key old ∧ actor.context = old.context)
    (recorded : ∀ (key : Str) (actor : Actor) (turn : Turn),Live s key actor → turn ∈ actor.context →
      t.recorded turn.send = s.recorded turn.send)
    (settled : ∀ (key : Str) (actor : Actor) (turn : Turn),Live s key actor → turn ∈ actor.context → Settled t key turn)
    (files : t.history.files = s.history.files)
    (writing : ∀ (c : Nat) (call : History.Task) (conversation : Conversation) (id : Str),t.history.calls[c]? = some call →
      call.phase = .writing conversation → call.op.target = some id → Continues s call conversation id) : Agreed t := by
  have kept : ∀ (key : Str) (actor old : Actor),Live s key old → actor.context = old.context → t.kept actor = s.kept old := by
    intro key actor old was same
    unfold State.kept
    rw [same]
    exact takeWhile_same fun turn member => recorded key old turn was member
  refine ⟨?_,?_,?_,?_,?_⟩
  · intro key actor now turn member
    rcases live key actor now with empty | ⟨old,was,same⟩
    · rw [empty] at member
      cases member
    · exact settled key old turn was (same ▸ member)
  · intro key actor now
    rcases live key actor now with empty | ⟨old,was,same⟩
    · rw [empty]
      exact List.Pairwise.nil
    · rw [same]
      refine (agreed.first key old was).imp_of_mem ?_
      intro one later first second ordered
      rw [recorded key old one was first,recorded key old later was second]
      exact ordered
  · intro key actor now
    rcases live key actor now with empty | ⟨old,was,same⟩
    · rw [empty]
      exact nodup_nil
    · rw [same]
      exact agreed.distinct key old was
  · intro key actor now some_
    rcases live key actor now with empty | ⟨old,was,same⟩
    · simp [State.kept,empty] at some_
    · rw [kept key actor old was same] at some_ ⊢
      rw [files]
      exact agreed.shown key old was some_
  · intro c call conversation id found phase target
    obtain ⟨before,outside,digest,changed,path,home,ends⟩ := writing c call conversation id found phase target
    refine ⟨before,outside,digest,changed,path,home,?_⟩
    intro actor now
    rcases live id actor now with empty | ⟨old,was,same⟩
    · simp only [State.kept,empty,takeWhile_nil]
      exact ends_nil _
    · rw [kept id actor old was same]
      exact ends old was

def Phase.outside : Phase → Bool
  | .answered _ | .recording _ | .done (.ok _) => false
  | _ => true

theorem Settled.inside (settled : Settled s key turn) (there : s.sends[i]? = some send) (outside : send.phase.outside = true) :
    turn.send ≠ i := by
  rintro rfl
  obtain ⟨other,found,_,_,phases⟩ := settled
  rw [there] at found
  cases found
  rcases phases with phase | ⟨c,_,phase,_⟩ | ⟨reply,phase⟩ <;> rw [phase] at outside <;> cases outside

theorem recorded_same (sends : t.sends[j]? = s.sends[j]?) (history : t.history = s.history) : t.recorded j = s.recorded j := by
  unfold State.recorded
  rw [sends,history]

theorem Agreed.aside (agreed : Agreed s) (history : t.history = s.history)
    (live : ∀ (key : Str) (actor : Actor),Live t key actor → actor.context = [] ∨
      ∃ old,Live s key old ∧ actor.context = old.context)
    (sends : ∀ (key : Str) (turn : Turn),Settled s key turn → t.sends[turn.send]? = s.sends[turn.send]?) : Agreed t := by
  refine agreed.frame live ?_ ?_ (by rw [history]) ?_
  · intro key actor turn was member
    exact recorded_same (sends key turn (agreed.settled key actor was turn member)) history
  · intro key actor turn was member
    have settled := agreed.settled key actor was turn member
    unfold Settled at settled ⊢
    rw [sends key turn (agreed.settled key actor was turn member),history]
    exact settled
  · intro c call conversation id found
    rw [history] at found
    exact agreed.writing c call conversation id found

theorem setPhase_elsewhere {next : Phase} (there : s.sends[i]? = some send) (outside : send.phase.outside = true)
    (settled : Settled s key turn) : (s.setPhase i send next).sends[turn.send]? = s.sends[turn.send]? := by
  rw [State.setPhase,List.getElem?_set_ne fun same => settled.inside there outside same.symm]

theorem live_same (registered : t.registered = s.registered) (actors : t.actors = s.actors) (now : Live t key actor) :
    actor.context = [] ∨ ∃ old,Live s key old ∧ actor.context = old.context := by
  obtain ⟨n,named,there⟩ := now
  rw [registered] at named
  rw [actors] at there
  exact .inr ⟨actor,⟨n,named,there⟩,rfl⟩

theorem live_set {next : Actor} (now : Live t key actor) (there : s.actors[n]? = some before)
    (actors : t.actors = s.actors.set n next) (registered : t.registered = s.registered)
    (context : next.context = [] ∨ next.context = before.context) :
    actor.context = [] ∨ ∃ old,Live s key old ∧ actor.context = old.context := by
  obtain ⟨m,named,found⟩ := now
  rw [registered] at named
  rw [actors] at found
  by_cases same : n = m
  · subst same
    rw [List.getElem?_set_self (List.getElem?_eq_some_iff.mp there).1] at found
    cases found
    rcases context with empty | kept
    · exact .inl empty
    · exact .inr ⟨before,⟨n,named,there⟩,kept⟩
  · rw [List.getElem?_set_ne same] at found
    exact .inr ⟨actor,⟨m,named,found⟩,rfl⟩

theorem look_agreed (agreed : Agreed s) (there : s.sends[i]? = some send)
    (phase : send.phase = .asked) (ran : s.look max i send artifact evicted = some t) : Agreed t := by
  have outside : send.phase.outside = true := by
    rw [phase]
    rfl
  have erased : ∀ {table : Table Str Nat} {k key : Str} {n : Nat},(table.erase k)[key]? = some n → table[key]? = some n := by
    intro table k key n named
    rw [get_erase] at named
    split at named
    · cases named
    · exact named
  unfold State.look at ran
  split at ran
  · cases ran
    exact agreed.aside rfl (fun _ _ now => live_same rfl rfl now) fun _ _ settled => setPhase_elsewhere there outside settled
  · split at ran
    · cases ran
      refine agreed.aside rfl ?_ fun _ _ settled => setPhase_elsewhere there outside settled
      rintro key actor ⟨n,named,found⟩
      exact .inr ⟨actor,⟨n,erased named,found⟩,rfl⟩
    · simp only at ran
      split at ran <;> cases ran
      refine agreed.aside rfl ?_ fun _ _ settled => setPhase_elsewhere there outside settled
      rintro key actor ⟨n,named,found⟩
      by_cases old : n < s.actors.length
      · rw [List.getElem?_append_left old] at found
        refine .inr ⟨actor,⟨n,?_,found⟩,rfl⟩
        rw [get_insert] at named; split at named
        · cases named; omega
        · rw [get_eraseKeys] at named; split at named
          · cases named
          · exact erased named
      · rw [List.getElem?_append_right (Nat.le_of_not_lt old),List.getElem?_singleton] at found
        split at found <;> cases found
        exact .inl rfl

theorem answer_agreed {rest : List Nat} {reply : Str} (wired : Wired s) (agreed : Agreed s) (found : s.actors[n]? = some actor)
    (there : s.sends[i]? = some send) (waits : send.phase = .waiting n) :
    Agreed {s.setPhase i send (.answered reply) with
      actors := s.actors.set n {actor with context := actor.context ++ [⟨i,send.content,reply⟩], mailbox := rest}} := by
  have outside : send.phase.outside = true := by
    rw [waits]
    rfl
  have bound := (List.getElem?_eq_some_iff.mp there).1
  obtain ⟨asked,held,owner⟩ := wired.asks i n send there (by rw [waits]; rfl)
  rw [found] at held
  cases held
  -- A live session is as before, or it has the new turn.
  have live : ∀ key later,Live {s.setPhase i send (.answered reply) with
      actors := s.actors.set n {actor with context := actor.context ++ [⟨i,send.content,reply⟩], mailbox := rest}} key later →
      ∃ old,Live s key old ∧ (later.context = old.context ∨
        later.context = old.context ++ [⟨i,send.content,reply⟩] ∧ key = send.key) := by
    rintro key later ⟨m,named,now⟩
    by_cases same : n = m
    · subst same
      simp only [List.getElem?_set_self (List.getElem?_eq_some_iff.mp found).1,Option.some.injEq] at now
      obtain ⟨known,held,mine⟩ := wired.keys key n named
      rw [found] at held
      cases held
      subst now
      exact ⟨actor,⟨n,named,found⟩,.inr ⟨rfl,mine.symm.trans owner⟩⟩
    · rw [List.getElem?_set_ne same] at now
      exact ⟨later,⟨m,named,now⟩,.inl rfl⟩
  generalize shape : ({s.setPhase i send (.answered reply) with
    actors := s.actors.set n {actor with context := actor.context ++ [⟨i,send.content,reply⟩], mailbox := rest}} : State) = t at *
  have history : t.history = s.history := shape ▸ rfl
  have elsewhere : ∀ key turn,Settled s key turn → t.sends[turn.send]? = s.sends[turn.send]? :=
    fun key turn settled => shape ▸ setPhase_elsewhere there outside settled
  have now : t.sends[i]? = some {send with phase := .answered reply} := shape ▸ List.getElem?_set_self bound
  have recorded : ∀ key old turn,Live s key old → turn ∈ old.context → t.recorded turn.send = s.recorded turn.send :=
    fun key old turn was member => recorded_same (elsewhere key turn (agreed.settled key old was turn member)) history
  have unrecorded : t.recorded i = false := by
    unfold State.recorded
    rw [now]
  have kept : ∀ key later,Live t key later → ∃ old,Live s key old ∧ t.kept later = s.kept old := by
    intro key later is
    obtain ⟨old,was,same⟩ := live key later is
    refine ⟨old,was,?_⟩
    have inner : old.context.takeWhile (fun turn => t.recorded turn.send) = s.kept old :=
      takeWhile_same fun turn member => recorded key old turn was member
    unfold State.kept at inner ⊢
    rcases same with same | ⟨same,_⟩
    · rw [same]
      exact inner
    · rw [same]
      refine (takeWhile_concat ?_).trans inner
      exact unrecorded
  have still : ∀ key old turn,Live s key old → turn ∈ old.context → Settled t key turn := by
    intro key old turn was member
    have settled := agreed.settled key old was turn member
    unfold Settled
    rw [elsewhere key turn settled,history]
    exact settled
  refine ⟨?_,?_,?_,?_,?_⟩
  · intro key later is turn member
    obtain ⟨old,was,same | ⟨same,mine⟩⟩ := live key later is
    · exact still key old turn was (same ▸ member)
    · rw [same] at member
      rcases mem_append.mp member with before | new
      · exact still key old turn was before
      · rw [mem_singleton.mp new]; exact ⟨_,now,mine.symm,rfl,.inl rfl⟩
  · intro key later is
    obtain ⟨old,was,same⟩ := live key later is
    have first : old.context.Pairwise fun one later => t.recorded later.send = true → t.recorded one.send = true := by
      refine (agreed.first key old was).imp_of_mem ?_
      intro one later first second ordered
      rw [recorded key old one was first,recorded key old later was second]
      exact ordered
    rcases same with same | ⟨same,_⟩
    · rw [same]
      exact first
    · rw [same,pairwise_append]
      refine ⟨first,pairwise_singleton _ _,?_⟩
      intro one _ later last known
      rw [mem_singleton.mp last,unrecorded] at known
      cases known
  · intro key later is
    obtain ⟨old,was,same | ⟨same,_⟩⟩ := live key later is
    · rw [same]
      exact agreed.distinct key old was
    · rw [same,map_append,nodup_append]
      refine ⟨agreed.distinct key old was,nodup_singleton _,?_⟩
      intro k member l last same
      obtain ⟨turn,listed,rfl⟩ := mem_map.mp member
      refine (agreed.settled key old was turn listed).inside there outside (same.trans ?_)
      simpa using last
  · intro key later is some_
    obtain ⟨old,was,same⟩ := kept key later is
    rw [same] at some_ ⊢
    rw [history]
    exact agreed.shown key old was some_
  · intro c call conversation id listed phase target
    rw [history] at listed
    obtain ⟨before,outside,digest,changed,path,home,ends⟩ := agreed.writing c call conversation id listed phase target
    refine ⟨before,outside,digest,changed,path,home,?_⟩
    intro later is
    obtain ⟨old,was,same⟩ := kept id later is
    rw [same]
    exact ends old was

end HologramLive.Chat
