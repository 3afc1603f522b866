import HologramLive.History.Moves
namespace HologramLive.Chat
open Tables Rpc Runs
open History (Answer Files)

structure Turn where
  send : Nat
  prompt : Str
  reply : Str
deriving DecidableEq, Repr

-- A resident session actor. `context` are the turns its child has answered; the
-- mailbox holds the sends whose turns it has still to take.
structure Actor where
  key : Str
  context : List Turn
  mailbox : List Nat
  stopped : Bool
deriving DecidableEq, Repr

structure TurnFailure where
  error : LiveError
  alive : Bool
deriving DecidableEq, Repr

-- Where a `send` is: it needs an actor, has one, is in its mailbox; its session
-- broke; its turn is answered; the exchange is being appended; it returned.
inductive Phase where
  | asked
  | asking (actor : Nat)
  | waiting (actor : Nat)
  | removing (error : LiveError)
  | answered (reply : Str)
  | recording (call : Nat)
  | done (answer : Answer)
deriving DecidableEq

structure Send where
  key : Str
  content : Str
  phase : Phase
deriving DecidableEq

-- `registered` is the session table, without the order in which it evicts.
structure State where
  registered : Table Str Nat
  actors : List Actor
  sends : List Send
  history : History.State

def State.setPhase (s : State) (i : Nat) (send : Send) (phase : Phase) : State :=
  {s with sends := s.sends.set i {send with phase := phase}}

def State.running (s : State) (n : Nat) : Bool := s.actors[n]?.any (!·.stopped)

variable (settings : History.Settings) (max : Nat) (s : State)

def State.look (i : Nat) (send : Send) (artifact : Except LiveError Unit) (evicted : List Str) : Option State :=
  match s.registered[send.key]?.filter s.running with
  | some n => some (s.setPhase i send (.asking n))
  | none =>
    match artifact with
    | .error error => some {s.setPhase i send (.done (.error error)) with registered := s.registered.erase send.key}
    | .ok () =>
      let room := eraseKeys (s.registered.erase send.key) evicted
      if room.size < max then
        some {s.setPhase i send (.asking s.actors.length) with
          registered := room.insert send.key s.actors.length
          actors := s.actors ++ [⟨send.key,[],[],false⟩]}
      else none

def unavailable (key : Str) : LiveError :=
  .transport ("weightc session ".toList ++ key ++ " actor is unavailable: actor not running".toList)

def State.ask (i : Nat) (send : Send) (n : Nat) : Option State :=
  s.actors[n]?.map fun actor =>
    if actor.stopped then s.setPhase i send (.removing (unavailable send.key))
    else {s.setPhase i send (.waiting n) with actors := s.actors.set n {actor with mailbox := actor.mailbox ++ [i]}}

def State.turn (n : Nat) (actor : Actor) (outcome : Except TurnFailure Str) : Option State :=
  match actor.mailbox with
  | [] => none
  | i :: rest =>
    match s.sends[i]? with
    | none => none
    | some send =>
      if send.phase = .waiting n then
        match outcome with
        | .ok reply => some {s.setPhase i send (.answered reply) with
            actors := s.actors.set n {actor with context := actor.context ++ [⟨i,send.content,reply⟩], mailbox := rest}}
        | .error ⟨error,true⟩ => some {s.setPhase i send (.done (.error error)) with
            actors := s.actors.set n {actor with mailbox := rest}}
        | .error ⟨error,false⟩ => some {s.setPhase i send (.removing error) with
            actors := s.actors.set n {actor with context := [], mailbox := rest}}
      else none

-- The child is killed with its context; what an actor that ended had in its
-- mailbox fails.
def State.stopSession (n : Nat) (actor : Actor) : State :=
  {s with actors := s.actors.set n {actor with context := []}}

def State.stop (n : Nat) (actor : Actor) : State :=
  {s with actors := s.actors.set n {actor with context := [], mailbox := [], stopped := true}}

def State.unanswered (i : Nat) (send : Send) (n : Nat) : Option State :=
  if s.running n then none else some (s.setPhase i send (.removing (unavailable send.key)))

def State.record (i : Nat) (send : Send) (reply : Str) : Option State :=
  (History.act settings s.history (.call (.appendExchange send.key send.content reply))).map fun history =>
    {s.setPhase i send (.recording s.history.calls.length) with history := history}

def State.finish (i : Nat) (send : Send) (call : Nat) : Option State :=
  match s.history.calls[call]? with
  | some ⟨_,_,.returned answer⟩ => some (s.setPhase i send (.done answer))
  | _ => none

def State.advance (i : Nat) (send : Send) (artifact : Except LiveError Unit) (evicted : List Str) : Option State :=
  match send.phase with
  | .asked => s.look max i send artifact evicted
  | .asking n => s.ask i send n
  | .waiting n => s.unanswered i send n
  | .removing error => some {s.setPhase i send (.done (.error error)) with registered := s.registered.erase send.key}
  | .answered reply => s.record settings i send reply
  | .recording call => s.finish i send call
  | .done _ => none

-- `history` is a call of the API, which has no `append_exchange`, or a step of any call.
inductive Action where
  | send (key content : Str)
  | step (i : Nat) (artifact : Except LiveError Unit) (evicted : List Str)
  | turn (n : Nat) (outcome : Except TurnFailure Str)
  | stopSession (n : Nat)
  | stop (n : Nat)
  | history (action : History.Action)

def ofApi : History.Action → Bool
  | .call (.appendExchange ..) => false
  | _ => true

def act (s : State) : Action → Option State
  | .send key content => some {s with sends := s.sends ++ [⟨key,content,.asked⟩]}
  | .step i artifact evicted => s.sends[i]?.bind fun send => s.advance settings max i send artifact evicted
  | .turn n outcome => s.actors[n]?.bind fun actor => if actor.stopped then none else s.turn n actor outcome
  | .stopSession n => s.actors[n]?.map (s.stopSession n)
  | .stop n => s.actors[n]?.map (s.stop n)
  | .history action =>
    if ofApi action then (History.act settings s.history action).map fun history => {s with history := history} else none

def Start (s : State) : Prop := s.registered = ∅ ∧ s.actors = [] ∧ s.sends = [] ∧ History.Start s.history

def Live (key : Str) (actor : Actor) : Prop :=
  ∃ n : Nat,s.registered[key]? = some n ∧ s.actors[n]? = some actor

def State.recorded (i : Nat) : Bool :=
  match s.sends[i]? with
  | some ⟨_,_,.recording call⟩ =>
    match s.history.calls[call]? with
    | some ⟨_,_,.returned (.ok _)⟩ => true
    | _ => false
  | some ⟨_,_,.done (.ok _)⟩ => true
  | _ => false

def Turn.exchange (turn : Turn) : List (Str × Str) := [("user".toList,turn.prompt),("assistant".toList,turn.reply)]

def Ends (messages : List ConversationMessage) (turns : List Turn) : Prop :=
  turns.flatMap Turn.exchange <:+ messages.map fun message => (message.role,message.content)

instance (messages : List ConversationMessage) (turns : List Turn) : Decidable (Ends messages turns) :=
  inferInstanceAs (Decidable (_ <:+ _))

end HologramLive.Chat

namespace HologramLive.Chat
open Tables Rpc Runs
open History (Answer Files)

variable {settings : History.Settings} {max : Nat} {s t : State} {i j n : Nat} {send : Send} {actor : Actor} {key : Str}

def Phase.session : Phase → Option Nat
  | .asking n | .waiting n => some n
  | _ => none

-- How the table, the sends and the calls refer to what there is.
structure Wired (s : State) : Prop where
  locks : History.Locks s.history
  keys : ∀ (key : Str) (n : Nat),s.registered[key]? = some n → ∃ actor,s.actors[n]? = some actor ∧ actor.key = key
  asks : ∀ (i n : Nat) (send : Send),s.sends[i]? = some send → send.phase.session = some n →
    ∃ actor,s.actors[n]? = some actor ∧ actor.key = send.key
  calls : ∀ (i c : Nat) (send : Send),s.sends[i]? = some send → send.phase = .recording c →
    ∃ call reply,s.history.calls[c]? = some call ∧ call.op = .appendExchange send.key send.content reply
  apart : ∀ (i j c : Nat) (one other : Send),s.sends[i]? = some one → s.sends[j]? = some other → one.phase = .recording c →
    other.phase = .recording c → i = j

-- What is there stays, and the table names nothing else.
structure Kept (s t : State) : Prop where
  actors : ∀ (n : Nat) (actor : Actor),s.actors[n]? = some actor → ∃ later,t.actors[n]? = some later ∧ later.key = actor.key
  registered : ∀ (key : Str) (n : Nat),t.registered[key]? = some n → s.registered[key]? = some n ∨
    ∃ actor,t.actors[n]? = some actor ∧ actor.key = key
  calls : ∀ (c : Nat) (call : History.Task),s.history.calls[c]? = some call →
    ∃ later,t.history.calls[c]? = some later ∧ later.op = call.op

theorem Kept.keys (kept : Kept s t) (wired : Wired s) :
    ∀ (key : Str) (n : Nat),t.registered[key]? = some n → ∃ actor,t.actors[n]? = some actor ∧ actor.key = key := by
  intro key n named
  rcases kept.registered key n named with old | new
  · obtain ⟨actor,there,same⟩ := wired.keys key n old
    obtain ⟨later,found,key⟩ := kept.actors n actor there
    exact ⟨later,found,key.trans same⟩
  · exact new

theorem Wired.kept (wired : Wired s) (kept : Kept s t) (locks : History.Locks t.history) (sends : t.sends = s.sends) : Wired t := by
  refine ⟨locks,kept.keys wired,?_,?_,?_⟩
  · intro i n send there phase
    rw [sends] at there
    obtain ⟨actor,found,same⟩ := wired.asks i n send there phase
    obtain ⟨later,present,key⟩ := kept.actors n actor found
    exact ⟨later,present,key.trans same⟩
  · intro i c send there phase
    rw [sends] at there
    obtain ⟨call,reply,found,op⟩ := wired.calls i c send there phase
    obtain ⟨later,present,same⟩ := kept.calls c call found
    exact ⟨later,reply,present,same.trans op⟩
  · intro i j c one other there there'
    rw [sends] at there there'
    exact wired.apart i j c one other there there'

theorem Wired.goes (wired : Wired s) (kept : Kept s t) (locks : History.Locks t.history)
    (there : s.sends[i]? = some send) (sends : t.sends = s.sends.set i {send with phase := next})
    (asks : ∀ n,next.session = some n → ∃ actor,t.actors[n]? = some actor ∧ actor.key = send.key)
    (calls : ∀ c,next = .recording c → s.history.calls.length ≤ c ∧ ∃ call reply,t.history.calls[c]? = some call ∧
      call.op = .appendExchange send.key send.content reply) : Wired t := by
  have bound := (List.getElem?_eq_some_iff.mp there).1
  have back : ∀ (j : Nat) (other : Send),t.sends[j]? = some other →
      j = i ∧ other = {send with phase := next} ∨ j ≠ i ∧ s.sends[j]? = some other := by
    intro j other found
    rw [sends] at found
    by_cases same : i = j
    · subst same
      rw [List.getElem?_set_self bound] at found
      cases found
      exact .inl ⟨rfl,rfl⟩
    · rw [List.getElem?_set_ne same] at found
      exact .inr ⟨fun eq => same eq.symm,found⟩
  have known : ∀ (j c : Nat) (other : Send),s.sends[j]? = some other → other.phase = .recording c → c < s.history.calls.length := by
    intro j c other found phase
    obtain ⟨call,_,present,_⟩ := wired.calls j c other found phase
    exact (List.getElem?_eq_some_iff.mp present).1
  refine ⟨locks,kept.keys wired,?_,?_,?_⟩
  · intro j n other found phase
    rcases back j other found with ⟨rfl,rfl⟩ | ⟨_,old⟩
    · exact asks n phase
    · obtain ⟨actor,present,same⟩ := wired.asks j n other old phase
      obtain ⟨later,after,key⟩ := kept.actors n actor present
      exact ⟨later,after,key.trans same⟩
  · intro j c other found phase
    rcases back j other found with ⟨rfl,rfl⟩ | ⟨_,old⟩
    · exact (calls c phase).2
    · obtain ⟨call,reply,present,op⟩ := wired.calls j c other old phase
      obtain ⟨later,after,same⟩ := kept.calls c call present
      exact ⟨later,reply,after,same.trans op⟩
  · intro j k c one other found found' phase phase'
    rcases back j one found with ⟨rfl,rfl⟩ | ⟨_,old⟩
    · rcases back k other found' with ⟨rfl,_⟩ | ⟨_,old'⟩
      · rfl
      · have fresh := (calls c phase).1
        have earlier := known k c other old' phase'
        omega
    · rcases back k other found' with ⟨rfl,rfl⟩ | ⟨_,old'⟩
      · have fresh := (calls c phase').1
        have earlier := known j c one old phase
        omega
      · exact wired.apart j k c one other old old' phase phase'

theorem kept_set (there : s.actors[n]? = some actor) (key : next.key = actor.key)
    (after : t.actors = s.actors.set n next) (registered : t.registered = s.registered) (history : t.history = s.history) :
    Kept s t := by
  have bound := (List.getElem?_eq_some_iff.mp there).1
  refine ⟨?_,fun key n named => .inl (registered ▸ named),fun c call found => ⟨call,history ▸ found,rfl⟩⟩
  intro m other found
  rw [after]
  by_cases same : n = m
  · subst same
    rw [there] at found
    cases found
    exact ⟨next,List.getElem?_set_self bound,key⟩
  · exact ⟨other,by rw [List.getElem?_set_ne same]; exact found,rfl⟩

theorem look_wired (wired : Wired s) (there : s.sends[i]? = some send)
    (ran : s.look max i send artifact evicted = some t) : Wired t := by
  have erased : ∀ (table : Table Str Nat) (k key : Str) (n : Nat),(table.erase k)[key]? = some n → table[key]? = some n := by
    intro table k key n named
    rw [get_erase] at named
    split at named
    · cases named
    · exact named
  unfold State.look at ran
  split at ran
  · rename_i n named
    cases ran
    obtain ⟨registered,_⟩ := Option.filter_eq_some_iff.mp named
    refine wired.goes ⟨fun n actor found => ⟨actor,found,rfl⟩,fun _ _ same => .inl same,fun _ call found => ⟨call,found,rfl⟩⟩
      wired.locks there rfl ?_ (by intro _ never; cases never)
    intro m same
    cases same
    exact wired.keys send.key n registered
  · split at ran
    · cases ran
      refine wired.goes ⟨fun n actor found => ⟨actor,found,rfl⟩,?_,fun _ call found => ⟨call,found,rfl⟩⟩
        wired.locks there rfl (by intro _ never; cases never) (by intro _ never; cases never)
      exact fun key n named => .inl (erased _ _ key n named)
    · simp only at ran
      split at ran <;> cases ran
      have fresh : (s.actors ++ [⟨send.key,[],[],false⟩])[s.actors.length]? = some ⟨send.key,[],[],false⟩ := by simp
      refine wired.goes ⟨?_,?_,fun _ call found => ⟨call,found,rfl⟩⟩ wired.locks there rfl ?_ (by intro _ never; cases never)
      · intro n actor found
        exact ⟨actor,by rw [List.getElem?_append_left (List.getElem?_eq_some_iff.mp found).1]; exact found,rfl⟩
      · intro key n named; rw [get_insert] at named
        split at named
        · rename_i same; cases named
          exact .inr ⟨_,fresh,same⟩
        · rw [get_eraseKeys] at named; split at named
          · cases named
          · exact .inl (erased _ _ key n named)
      · intro m same; cases same
        exact ⟨_,fresh,rfl⟩

theorem act_calls (ran : History.act settings h action = some k) (c : Nat)
    (call : History.Task) (found : h.calls[c]? = some call) : ∃ later,k.calls[c]? = some later ∧ later.op = call.op := by
  cases action with
  | call op =>
    cases ran
    exact ⟨call,by rw [List.getElem?_append_left (List.getElem?_eq_some_iff.mp found).1]; exact found,rfl⟩
  | step i outside =>
    obtain ⟨mine,there,ran⟩ := Option.bind_eq_some_iff.mp ran
    have placed : ∀ (g : History.State) (next : History.Phase),(∃ old,g.calls[c]? = some old ∧ old.op = call.op) →
        (i = c → mine.op = call.op) → ∃ later,(g.setPhase i mine next).calls[c]? = some later ∧ later.op = call.op := by
      rintro g next ⟨old,was,same⟩ own
      by_cases here : i = c
      · subst here
        exact ⟨{mine with phase := next},List.getElem?_set_self (List.getElem?_eq_some_iff.mp was).1,own rfl⟩
      · exact ⟨old,by rw [History.State.setPhase,List.getElem?_set_ne here]; exact was,same⟩
    have own : i = c → mine.op = call.op := by
      rintro rfl
      rw [there] at found
      cases found
      rfl
    have plain := fun next => placed h next ⟨call,found,rfl⟩ own
    have marked := fun digest next => placed (h.touch digest) next
      ⟨call.unsee digest,by rw [History.State.touch,List.getElem?_map,found]; rfl,rfl⟩ own
    cases History.advance_moved ran with
    | passes next after => exact after ▸ plain next
    | takes next free after => exact after ▸ plain next
    | loads id before outside was target got after => exact after ▸ plain _
    | fails error was after => exact after ▸ plain _
    | renames conversation digest was path after => exact after ▸ marked digest _
    | unlinks digest was after => exact after ▸ marked digest _

theorem advance_wired (wired : Wired s) (there : s.sends[i]? = some send)
    (ran : s.advance settings max i send artifact evicted = some t) : Wired t := by
  have same : Kept s s := ⟨fun n actor found => ⟨actor,found,rfl⟩,fun _ _ named => .inl named,fun _ call found => ⟨call,found,rfl⟩⟩
  unfold State.advance at ran
  cases phase : send.phase with
  | asked => simp only [phase] at ran; exact look_wired wired there ran
  | asking n =>
    simp only [phase,State.ask] at ran
    obtain ⟨actor,found,ran⟩ := Option.map_eq_some_iff.mp ran
    split at ran
    · subst ran
      exact wired.goes ⟨same.actors,same.registered,same.calls⟩ wired.locks there rfl (by intro _ never; cases never)
        (by intro _ never; cases never)
    · subst ran
      refine wired.goes (kept_set found (by rfl) rfl rfl rfl) wired.locks there rfl ?_ (by intro _ never; cases never)
      intro m eq
      cases eq
      obtain ⟨known,held,key⟩ := wired.asks i n send there (by rw [phase]; rfl)
      rw [found] at held
      cases held
      exact ⟨_,List.getElem?_set_self (List.getElem?_eq_some_iff.mp found).1,key⟩
  | waiting n =>
    simp only [phase,State.unanswered] at ran
    split at ran <;> cases ran
    exact wired.goes ⟨same.actors,same.registered,same.calls⟩ wired.locks there rfl (by intro _ never; cases never)
      (by intro _ never; cases never)
  | removing error =>
    simp only [phase,Option.some.injEq] at ran
    subst ran
    refine wired.goes ⟨same.actors,?_,same.calls⟩ wired.locks there rfl (by intro _ never; cases never)
      (by intro _ never; cases never)
    intro key n named
    rw [get_erase] at named
    split at named
    · cases named
    · exact .inl named
  | answered reply =>
    simp only [phase,State.record] at ran
    obtain ⟨history,called,ran⟩ := Option.map_eq_some_iff.mp ran
    subst ran
    refine wired.goes ⟨same.actors,same.registered,act_calls called⟩ (History.act_locks wired.locks called) there rfl
      (by intro _ never; cases never) ?_
    intro c eq
    cases eq
    cases called
    exact ⟨Nat.le_refl _,⟨.appendExchange send.key send.content reply,s.history.doneCalls,.invoked⟩,reply,by simp,rfl⟩
  | recording c =>
    simp only [phase,State.finish] at ran
    split at ran <;> cases ran
    exact wired.goes ⟨same.actors,same.registered,same.calls⟩ wired.locks there rfl (by intro _ never; cases never)
      (by intro _ never; cases never)
  | done answer => simp only [phase] at ran; cases ran

theorem turn_cases (ran : s.turn n actor outcome = some t) :
    ∃ i send rest,actor.mailbox = i :: rest ∧ s.sends[i]? = some send ∧ send.phase = .waiting n ∧
      ((∃ reply,outcome = .ok reply ∧ t = {s.setPhase i send (.answered reply) with
          actors := s.actors.set n {actor with context := actor.context ++ [⟨i,send.content,reply⟩], mailbox := rest}}) ∨
        (∃ error,t = {s.setPhase i send (.done (.error error)) with actors := s.actors.set n {actor with mailbox := rest}}) ∨
        ∃ error,t = {s.setPhase i send (.removing error) with
          actors := s.actors.set n {actor with context := [], mailbox := rest}}) := by
  unfold State.turn at ran
  split at ran
  · cases ran
  · rename_i i rest mailbox
    split at ran
    · cases ran
    · rename_i send there
      split at ran
      · rename_i waits
        refine ⟨i,send,rest,mailbox,there,waits,?_⟩
        split at ran <;> cases ran
        · exact .inl ⟨_,rfl,rfl⟩
        · exact .inr (.inl ⟨_,rfl⟩)
        · exact .inr (.inr ⟨_,rfl⟩)
      · cases ran

theorem act_wired (wired : Wired s) (ran : act settings max s action = some t) : Wired t := by
  cases action with
  | send key content =>
    cases ran
    have back : ∀ (j : Nat) (other : Send),(s.sends ++ [⟨key,content,.asked⟩])[j]? = some other →
        s.sends[j]? = some other ∨ other.phase = .asked := by
      intro j other found
      by_cases old : j < s.sends.length
      · rw [List.getElem?_append_left old] at found
        exact .inl found
      · rw [List.getElem?_append_right (Nat.le_of_not_lt old),List.getElem?_singleton] at found
        split at found <;> cases found
        exact .inr rfl
    refine ⟨wired.locks,wired.keys,?_,?_,?_⟩
    · intro j n other found phase
      rcases back j other found with old | new
      · exact wired.asks j n other old phase
      · rw [new] at phase; cases phase
    · intro j c other found phase
      rcases back j other found with old | new
      · exact wired.calls j c other old phase
      · rw [new] at phase; cases phase
    · intro j k c one other found found' phase phase'
      rcases back j one found with old | new
      · rcases back k other found' with old' | new
        · exact wired.apart j k c one other old old' phase phase'
        · rw [new] at phase'; cases phase'
      · rw [new] at phase; cases phase
  | step i artifact evicted =>
    obtain ⟨send,there,ran⟩ := Option.bind_eq_some_iff.mp ran
    exact advance_wired wired there ran
  | turn n outcome =>
    obtain ⟨actor,found,ran⟩ := Option.bind_eq_some_iff.mp ran
    split at ran
    · cases ran
    · obtain ⟨i,send,rest,_,there,_,⟨reply,_,after⟩ | ⟨error,after⟩ | ⟨error,after⟩⟩ := turn_cases ran
      all_goals
        subst after
        exact wired.goes (kept_set found (by rfl) rfl rfl rfl) wired.locks there rfl (by intro _ never; cases never)
          (by intro _ never; cases never)
  | stopSession n =>
    obtain ⟨actor,found,ran⟩ := Option.map_eq_some_iff.mp ran
    subst ran
    exact wired.kept (kept_set found (by rfl) rfl rfl rfl) wired.locks rfl
  | stop n =>
    obtain ⟨actor,found,ran⟩ := Option.map_eq_some_iff.mp ran
    subst ran
    exact wired.kept (kept_set found (by rfl) rfl rfl rfl) wired.locks rfl
  | history action =>
    simp only [act] at ran
    split at ran
    · obtain ⟨history,moved,ran⟩ := Option.map_eq_some_iff.mp ran
      subst ran
      exact wired.kept ⟨fun n actor found => ⟨actor,found,rfl⟩,fun _ _ named => .inl named,act_calls moved⟩
        (History.act_locks wired.locks moved) rfl
    · cases ran

end HologramLive.Chat
