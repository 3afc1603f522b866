import HologramLive.Chat.Agreement
import HologramLive.History.Linearizability
namespace HologramLive.Chat
open Tables Rpc Runs History Option List
open History (Answer Files pathFor)

variable {settings : History.Settings} {max : Nat} {s t : State} {i n : Nat} {send : Send} {actor : Actor} {key : Str}

theorem advance_agreed (wired : Wired s) (agreed : Agreed s)
    (there : s.sends[i]? = some send) (allowed : fine s (.step i artifact evicted))
    (ran : s.advance settings max i send artifact evicted = some t) : Agreed t := by
  have aside : ∀ next,send.phase.outside = true → Agreed (s.setPhase i send next) := by
    intro next outside
    exact agreed.aside rfl (fun _ _ is => live_same rfl rfl is) fun _ _ settled => setPhase_elsewhere there outside settled
  unfold State.advance at ran
  cases phase : send.phase with
  | asked => simp only [phase] at ran; exact look_agreed agreed there phase ran
  | asking n =>
    simp only [phase,State.ask] at ran
    obtain ⟨actor,found,ran⟩ := map_eq_some_iff.mp ran
    have outside : send.phase.outside = true := by
      rw [phase]
      rfl
    split at ran
    · subst ran
      exact aside _ outside
    · subst ran
      refine agreed.aside rfl ?_ fun _ _ settled => setPhase_elsewhere there outside settled
      intro key before is
      exact live_set is found rfl rfl (.inr rfl)
  | waiting n =>
    simp only [phase,State.unanswered] at ran
    split at ran <;> cases ran
    exact aside _ (by rw [phase]; rfl)
  | removing error =>
    simp only [phase,Option.some.injEq] at ran
    subst ran
    have outside : send.phase.outside = true := by
      rw [phase]
      rfl
    refine agreed.aside rfl ?_ fun _ _ settled => setPhase_elsewhere there outside settled
    rintro key actor ⟨n,named,found⟩
    rw [get_erase] at named
    split at named
    · cases named
    · exact .inr ⟨actor,⟨n,named,found⟩,rfl⟩
  | answered reply => simp only [phase] at ran; exact record_agreed wired agreed there phase ran
  | recording c =>
    simp only [phase] at ran
    exact finish_agreed agreed there phase (allowed send c there phase) ran
  | done answer => simp only [phase] at ran; cases ran

theorem turn_agreed (wired : Wired s) (agreed : Agreed s) (found : s.actors[n]? = some actor)
    (ran : s.turn n actor outcome = some t) : Agreed t := by
  obtain ⟨i,send,rest,_,there,waits,answered | ⟨error,after⟩ | ⟨error,after⟩⟩ := turn_cases ran
  · obtain ⟨reply,_,after⟩ := answered
    subst after
    exact answer_agreed wired agreed found there waits
  all_goals
    have outside : send.phase.outside = true := by
      rw [waits]
      rfl
    subst after
  · refine agreed.aside rfl ?_ fun _ _ settled => setPhase_elsewhere there outside settled
    intro key before is
    exact live_set is found rfl rfl (.inr rfl)
  · refine agreed.aside rfl ?_ fun _ _ settled => setPhase_elsewhere there outside settled
    intro key before is
    exact live_set is found rfl rfl (.inl rfl)

theorem act_agreed (wired : Wired s) (agreed : Agreed s) (allowed : fine s action)
    (ran : act settings max s action = some t) : Agreed t := by
  cases action with
  | send key content =>
    cases ran
    refine agreed.aside rfl (fun _ _ is => live_same rfl rfl is) ?_
    rintro _ turn ⟨send,found,_⟩
    rw [List.getElem?_append_left (List.getElem?_eq_some_iff.mp found).1]
  | step i artifact evicted =>
    obtain ⟨send,there,ran⟩ := Option.bind_eq_some_iff.mp ran
    exact advance_agreed wired agreed there allowed ran
  | turn n outcome =>
    obtain ⟨actor,found,ran⟩ := Option.bind_eq_some_iff.mp ran
    split at ran
    · cases ran
    · exact turn_agreed wired agreed found ran
  | stopSession n =>
    obtain ⟨actor,found,ran⟩ := map_eq_some_iff.mp ran
    subst ran
    exact agreed.aside rfl (fun _ _ is => live_set is found rfl rfl (.inl rfl)) fun _ _ _ => rfl
  | stop n =>
    obtain ⟨actor,found,ran⟩ := map_eq_some_iff.mp ran
    subst ran
    exact agreed.aside rfl (fun _ _ is => live_set is found rfl rfl (.inl rfl)) fun _ _ _ => rfl
  | history action =>
    simp only [act] at ran
    split at ran
    · obtain ⟨history,moved,ran⟩ := map_eq_some_iff.mp ran
      subst ran
      cases action with
      | call op => exact call_agreed agreed op moved
      | step c outside => exact step_agreed wired agreed allowed moved
    · cases ran

theorem start_agreed (start : Start s) : Wired s ∧ Agreed s := by
  obtain ⟨registered,actors,sends,opened,keyed,lock,calls⟩ := start
  have nobody : ∀ key actor,¬Live s key actor := by
    rintro key actor ⟨n,_,there⟩
    rw [actors] at there
    cases there
  refine ⟨⟨⟨keyed,?_,?_⟩,?_,?_,?_,?_⟩,?_,?_,?_,?_,?_⟩
  · intro c call there
    rw [calls] at there
    cases there
  · intro call member
    rw [calls] at member
    cases member
  · intro key n named
    rw [registered] at named
    cases named
  · intro i n send there
    rw [sends] at there
    cases there
  · intro i c send there
    rw [sends] at there
    cases there
  · intro i j c one other there
    rw [sends] at there
    cases there
  · intro key actor is
    exact (nobody key actor is).elim
  · intro key actor is
    exact (nobody key actor is).elim
  · intro key actor is
    exact (nobody key actor is).elim
  · intro key actor is
    exact (nobody key actor is).elim
  · intro c call conversation id there
    rw [calls] at there
    cases there

theorem settled_kept (agreed : Agreed s) (quiet : ∀ send ∈ s.sends,∃ answer,send.phase = .done answer) (is : Live s key actor) :
    s.kept actor = actor.context := by
  refine takeWhile_eq_self_iff.mpr fun turn member => ?_
  obtain ⟨send,found,_,_,answered | ⟨c,_,stage,_⟩ | ⟨reply,done⟩⟩ := agreed.settled key actor is turn member
  · obtain ⟨answer,finished⟩ := quiet send (mem_of_getElem? found)
    rw [answered] at finished
    cases finished
  · obtain ⟨answer,finished⟩ := quiet send (mem_of_getElem? found)
    rw [stage] at finished
    cases finished
  · exact recorded_done found done

theorem context_recorded (reached : Reached Start (Taken (act settings max) fine) s)
    (quiet : ∀ send ∈ s.sends,∃ answer,send.phase = .done answer) (is : Live s key actor) (answered : actor.context ≠ []) :
    ∃ digest conversation,pathFor key = .ok digest ∧ s.history.files[digest]? = some conversation ∧
      Ends conversation.messages actor.context := by
  have both : Wired s ∧ Agreed s := by
    refine reached.invariant (fun s => Wired s ∧ Agreed s) (fun _ => start_agreed) ?_
    rintro s t _ ⟨wired,agreed⟩ ⟨action,allowed,ran⟩
    exact ⟨act_wired wired ran,act_agreed wired agreed allowed ran⟩
  have kept := settled_kept both.2 quiet is
  have shown := both.2.shown key actor is (by rw [kept]; exact answered)
  rw [kept] at shown
  exact shown

section Deciding

instance (p : Actor → Prop) [DecidablePred p] : Decidable (∀ actor,Live s key actor → p actor) :=
  decidable_of_iff (∀ actor,(s.registered[key]?.bind fun n => s.actors[n]?) = some actor → p actor) <| by
    refine forall_congr' fun actor => imp_congr_left ?_
    rw [Option.bind_eq_some_iff]
    rfl

def archives : History.Op → Bool
  | .setArchived .. => true
  | _ => false

theorem archives_iff : archives op = true ↔ ∃ id archived,op = .setArchived id archived := by
  constructor
  · intro is
    cases op with
    | setArchived id archived => exact ⟨id,archived,rfl⟩
    | create | list | get | append | appendExchange | delete => cases is
  · rintro ⟨id,archived,rfl⟩
    rfl

def recordedBy (s : State) (c : Nat) (turn : Turn) : Bool := s.sends[turn.send]?.any fun send => decide (send.phase = .recording c)

def inTurn (s : State) (c : Nat) : List Turn → Bool
  | [] => false
  | turn :: later => recordedBy s c turn || s.recorded turn.send && inTurn s c later

theorem inTurn_iff : inTurn s c turns = true ↔ ∃ before turn later send,turns = before ++ turn :: later ∧
    (∀ earlier ∈ before,s.recorded earlier.send = true) ∧ s.sends[turn.send]? = some send ∧ send.phase = .recording c := by
  constructor
  · intro holds
    induction turns with
    | nil => cases holds
    | cons turn later ih =>
      rcases Bool.or_eq_true_iff.mp holds with here | there
      · obtain ⟨send,found,phase⟩ := (any_eq_true _ _).mp here
        exact ⟨[],turn,later,send,rfl,forall_mem_nil _,found,of_decide_eq_true phase⟩
      · obtain ⟨first,rest⟩ := Bool.and_eq_true_iff.mp there
        obtain ⟨before,next,after,send,rfl,all,found⟩ := ih rest
        exact ⟨turn :: before,next,after,send,rfl,forall_mem_cons.mpr ⟨first,all⟩,found⟩
  · rintro ⟨before,turn,later,send,rfl,all,found,phase⟩
    induction before with
    | nil => simp [inTurn,recordedBy,found,phase]
    | cons first rest ih =>
      have ⟨head,tail⟩ := forall_mem_cons.mp all
      simp [inTurn,head,ih tail]

instance : ∀ call,Decidable (Shows s c call)
  | ⟨op,_,.writing conversation⟩ => decidable_of_iff
      (∀ actor,Live s conversation.id actor → actor.context = [] ∨ archives op = true ∨ inTurn s c actor.context = true) <| by
        simp only [archives_iff,inTurn_iff]; rfl
  | ⟨_,_,.unlinking digest⟩ =>
    inferInstanceAs (Decidable (∀ actor,Live s ("blake3:".toList ++ digest) actor → actor.context = []))
  | ⟨_,_,.invoked⟩ | ⟨_,_,.created _⟩ | ⟨_,_,.checked⟩ | ⟨_,_,.locked⟩ | ⟨_,_,.reading ..⟩ | ⟨_,_,.returned _⟩ => .isTrue trivial

def Phase.records : Phase → Bool
  | .recording _ => true
  | _ => false

theorem records_iff {phase : Phase} : phase.records = true ↔ ∃ c,phase = .recording c := by
  constructor
  · intro is
    cases phase with
    | recording c => exact ⟨c,rfl⟩
    | asked | asking | waiting | removing | answered | done => cases is
  · rintro ⟨c,rfl⟩
    rfl

instance : ∀ s action,Decidable (fine s action)
  | s,.step i _ _ => decidable_of_iff (∀ send,s.sends[i]? = some send → send.phase.records = true →
      ∀ actor,Live s send.key actor → (∃ turn ∈ actor.context,turn.send = i) → s.recorded i = true) <| by
        constructor
        · intro holds send c found phase; exact holds send found (records_iff.mpr ⟨c,phase⟩)
        · intro holds send found is
          obtain ⟨c,phase⟩ := records_iff.mp is
          exact holds send c found phase
  | s,.history (.step c _) => inferInstanceAs (Decidable (∀ call,s.history.calls[c]? = some call → Shows s c call))
  | _,.history (.call _) | _,.send .. | _,.turn .. | _,.stopSession _ | _,.stop _ => .isTrue trivial

end Deciding

def everything : State → Action → Prop := fun _ _ => True
instance : ∀ s action,Decidable (everything s action) := fun _ _ => .isTrue trivial

def begun : Conversation := ⟨demoId,"demo".toList,5,5,[],false⟩

def idle : State := ⟨∅,[],[],⟨(∅ : Files).insert demo begun,(∅ : Files).insert demo begun,none,[]⟩⟩

theorem idle_start : Start idle := by
  refine ⟨rfl,rfl,rfl,rfl,?_,rfl,rfl⟩
  intro digest conversation found
  simp only [idle,get_insert] at found
  split at found
  · rename_i same
    cases found
    rw [← same]
    decide
  · cases found

def look (i : Nat) : Action := .step i (.ok ()) []
def tick (c : Nat) : Action := .history (History.tick c)
def ask (content : String) : Action := .send demoId content.toList
def reply (content : String) : Action := .turn 0 (.ok content.toList)

def quietly : List Action :=
  [ask "hello",look 0,look 0,reply "hi",look 0,tick 0,tick 0,tick 0,tick 0,look 0,
    .history (.call (.setArchived demoId true)),tick 1,tick 1,tick 1]

def crossed : List Action :=
  [ask "one",ask "two",look 0,look 1,look 0,look 1,reply "a",reply "b",
    look 1,tick 0,tick 0,tick 0,tick 0,look 0,tick 1,tick 1,tick 1,tick 1,look 0,look 1]

def Phase.ended : Phase → Bool
  | .done _ => true
  | _ => false

def Phase.succeeds : Phase → Bool
  | .done (.ok (.conversation _)) => true
  | _ => false

theorem succeeds_done {phase : Phase} (is : phase.succeeds = true) :
    ∃ conversation,phase = .done (.ok (.conversation conversation)) := by
  unfold Phase.succeeds at is
  split at is
  · exact ⟨_,rfl⟩
  · cases is

theorem over_done {phase : Phase} (is : phase.ended = true) : ∃ answer,phase = .done answer := by
  cases phase with
  | done answer => exact ⟨answer,rfl⟩
  | asked | asking | waiting | removing | answered | recording => cases is

theorem quietly_recorded : ∃ s,Reached Start (Taken (act small 4) fine) s ∧ ∃ actor,Live s demoId actor ∧
    actor.context = [⟨0,"hello".toList,"hi".toList⟩] ∧ ∃ digest conversation,pathFor demoId = .ok digest ∧
      s.history.files[digest]? = some conversation ∧ Ends conversation.messages actor.context := by
  have shown : (play (act small 4) fine idle quietly).any (fun s => decide
      (s.sends.all (·.phase.ended) = true ∧ s.registered[demoId]? = some 0 ∧
        s.actors = [⟨demoId,[⟨0,"hello".toList,"hi".toList⟩],[],false⟩])) = true := by
    decide
  obtain ⟨s,reached,seen⟩ := play_shows idle_start shown
  obtain ⟨finished,registered,actors⟩ := of_decide_eq_true seen
  have live : Live s demoId ⟨demoId,[⟨0,"hello".toList,"hi".toList⟩],[],false⟩ :=
    ⟨0,registered,by rw [actors]; rfl⟩
  refine ⟨s,reached,_,live,rfl,?_⟩
  exact context_recorded reached (fun send member => over_done (all_eq_true.mp finished send member)) live (by decide)

theorem crossed_orders : ∃ s,Reached Start (Taken (act small 4) everything) s ∧
    (∀ send ∈ s.sends,∃ conversation,send.phase = .done (.ok (.conversation conversation))) ∧ ∃ actor conversation,
      Live s demoId actor ∧ actor.context = [⟨0,"one".toList,"a".toList⟩,⟨1,"two".toList,"b".toList⟩] ∧
      pathFor demoId = .ok demo ∧ s.history.files[demo]? = some conversation ∧
      conversation.messages.map (·.content) = ["two".toList,"b".toList,"one".toList,"a".toList] ∧
      ¬Ends conversation.messages actor.context := by
  have shown : (play (act small 4) everything idle crossed).any (fun s => decide
      (s.sends.all (·.phase.succeeds) = true ∧ s.registered[demoId]? = some 0 ∧
        s.actors = [⟨demoId,[⟨0,"one".toList,"a".toList⟩,⟨1,"two".toList,"b".toList⟩],[],false⟩] ∧
        s.history.files[demo]? = some {begun with messages :=
          [⟨"user".toList,"two".toList,5⟩,⟨"assistant".toList,"b".toList,5⟩,
            ⟨"user".toList,"one".toList,5⟩,⟨"assistant".toList,"a".toList,5⟩]})) = true := by
    decide
  obtain ⟨s,reached,seen⟩ := play_shows idle_start shown
  obtain ⟨finished,registered,actors,file⟩ := of_decide_eq_true seen
  refine ⟨s,reached,fun send member => succeeds_done (all_eq_true.mp finished send member),
    _,_,⟨0,registered,by rw [actors]; rfl⟩,rfl,?_,file,rfl,?_⟩
  · decide
  · decide

end HologramLive.Chat
