import HologramLive.Cluster.Admission
namespace HologramLive.Cluster
open Tables Std

-- What happens to a node's policy: a call, during which the pin file can or
-- cannot be written, or a restart under the token and the keys configured by then.
inductive Event where
  | authorize (nodeId : Str) (presented : Option Str) (written : Bool)
  | restart (token : Str) (trusted : List Str)

def TokenAdmission.handle (crates : ClusterCrates) (admission : TokenAdmission) : Event → TokenAdmission
  | .authorize nodeId presented written => (admission.authorize crates written nodeId presented).2
  | .restart token trusted => .new token admission.pinFile trusted

def TokenAdmission.run (crates : ClusterCrates) (admission : TokenAdmission) (events : List Event) : TokenAdmission :=
  events.foldl (handle crates) admission

def TokenAdmission.stored (admission : TokenAdmission) (id : Str) : Prop := ∃ ids ∈ admission.pinFile,id ∈ ids

-- The id proves it holds the token while no configuration lists it.
def Presents (crates : ClusterCrates) (token : Str) (trusted : List Str) (id : Str) (presented : Option Str) : Prop :=
  id ∉ trusted ∧ (∃ key,parseNodeId crates id = .ok key) ∧ presented = some (ticket crates token id)

def Shown (crates : ClusterCrates) : Str → List Str → List Event → Str → Prop
  | _,_,[],_ => False
  | token,trusted,.authorize nodeId presented _ :: later,id =>
    (id = nodeId ∧ Presents crates token trusted nodeId presented) ∨ Shown crates token trusted later id
  | _,_,.restart token trusted :: later,id => Shown crates token trusted later id

namespace Pins
section Ledgers
variable {crates : ClusterCrates}

-- What the policy is for: the keys configured at the last start, and those who
-- proved themselves. A restart forgets whom no write has recorded since.
structure Ledger where
  token : Str
  configured : List Str
  saved : Set Str
  unsaved : Set Str

namespace Ledger

def new (token : Str) (trusted : List Str) : Ledger := ⟨token,trusted,∅,∅⟩

def Member (l : Ledger) (id : Str) : Prop := id ∈ l.saved ∨ id ∈ l.unsaved

open Classical in
noncomputable def handle (crates : ClusterCrates) (l : Ledger) : Event → Ledger
  | .authorize nodeId presented written =>
    if Presents crates l.token l.configured nodeId presented ∧ ¬l.Member nodeId then
      if written then {l with saved := insert nodeId (l.saved ∪ l.unsaved),unsaved := ∅}
      else {l with unsaved := insert nodeId l.unsaved}
    else l
  | .restart token trusted => ⟨token,trusted,l.saved,∅⟩

noncomputable def run (crates : ClusterCrates) (l : Ledger) (events : List Event) : Ledger := events.foldl (handle crates) l

end Ledger

-- The policy keeps the ledger: its pins are the ledger's, and its file the saved ones.
structure Keeps (admission : TokenAdmission) (l : Ledger) : Prop where
  token : admission.token = l.token
  configured : ∀ id,id ∈ admission.configured ↔ id ∈ l.configured
  pinned : ∀ id,id ∈ admission.pinned ↔ l.Member id
  live : admission.poisoned = false
  stored : ∀ id,admission.stored id ↔ id ∈ l.saved

theorem new_keeps (token : Str) (trusted : List Str) : Keeps (.new token none trusted) (.new token trusted) := by
  refine ⟨rfl,fun id => mem_collect,fun id => ?_,rfl,fun id => ?_⟩
  · simp [TokenAdmission.new,Ledger.new,Ledger.Member]
  · simp [TokenAdmission.new,TokenAdmission.stored,Ledger.new]

variable {admission : TokenAdmission} {l : Ledger}

theorem Keeps.pins (keeps : Keeps admission l) (nodeId : Str) (presented : Option Str) :
    TokenAdmission.Pins crates admission nodeId presented ↔
      Presents crates l.token l.configured nodeId presented ∧ ¬l.Member nodeId := by
  unfold TokenAdmission.Pins Presents
  rw [keeps.configured,keeps.pinned,keeps.token]
  tauto

theorem Keeps.handle (keeps : Keeps admission l) (crates : ClusterCrates) (event : Event) :
    Keeps (admission.handle crates event) (l.handle crates event) := by
  cases event with
  | restart token trusted =>
    refine ⟨rfl,fun id => mem_collect,fun id => ?_,rfl,keeps.stored⟩
    simp only [TokenAdmission.handle,TokenAdmission.new,Ledger.handle,Ledger.Member,Set.mem_empty_iff_false,or_false,
      ←keeps.stored,TokenAdmission.stored]
    cases admission.pinFile <;> simp
  | authorize nodeId presented written =>
    unfold TokenAdmission.handle Ledger.handle
    simp only
    rcases TokenAdmission.authorize_cases crates written nodeId presented keeps.live with
      ⟨pins,answered⟩ | ⟨still,same,-⟩
    · rw [answered,if_pos ((keeps.pins nodeId presented).mp pins)]
      have grown (id : Str) : id ∈ admission.pinned.insert nodeId ↔ id = nodeId ∨ l.Member id := by
        simp only [ExtTreeSet.mem_insert,Std.compare_eq_iff_eq,keeps.pinned]
        exact or_congr_left eq_comm
      cases written with
      | true =>
        refine ⟨keeps.token,keeps.configured,fun id => ?_,keeps.live,fun id => ?_⟩
        · rw [grown]; simp [Ledger.Member]
        · simp only [TokenAdmission.stored,if_true,Option.mem_some_iff,exists_eq_left',grown]
          simp [Ledger.Member]
      | false =>
        refine ⟨keeps.token,keeps.configured,fun id => ?_,keeps.live,keeps.stored⟩
        rw [grown]; simp [Ledger.Member]
        tauto
    · rw [same,if_neg fun pins => still ((keeps.pins nodeId presented).mpr pins)]
      exact keeps

theorem Keeps.run (keeps : Keeps admission l) (crates : ClusterCrates) (events : List Event) :
    Keeps (admission.run crates events) (l.run crates events) := by
  induction events generalizing admission l with
  | nil => exact keeps
  | cons event later ih => exact ih (keeps.handle crates event)

theorem authorize_config (l : Ledger) (nodeId : Str) (presented : Option Str) (written : Bool) :
    (l.handle crates (.authorize nodeId presented written)).token = l.token ∧
      (l.handle crates (.authorize nodeId presented written)).configured = l.configured := by
  simp only [Ledger.handle]
  split_ifs <;> exact ⟨rfl,rfl⟩

theorem authorize_member (l : Ledger) (nodeId : Str) (presented : Option Str) (written : Bool) (id : Str) :
    (l.handle crates (.authorize nodeId presented written)).Member id ↔
      l.Member id ∨ (id = nodeId ∧ Presents crates l.token l.configured nodeId presented) := by
  simp only [Ledger.handle]
  by_cases shows : Presents crates l.token l.configured nodeId presented
  · by_cases before : l.Member nodeId
    · rw [if_neg fun pins => pins.2 before]
      refine ⟨.inl,?_⟩
      rintro (kept | ⟨rfl,-⟩)
      · exact kept
      · exact before
    · rw [if_pos ⟨shows,before⟩]
      cases written <;> simp [Ledger.Member,shows] <;> tauto
  · rw [if_neg fun pins => shows pins.1]
    simp [shows]

variable (events : List Event)

theorem member_shown (id : Str) (member : (l.run crates events).Member id) :
    l.Member id ∨ Shown crates l.token l.configured events id := by
  induction events generalizing l with
  | nil => exact .inl member
  | cons event later ih =>
    have reached := ih member
    cases event with
    | restart token trusted =>
      refine reached.imp_left fun kept => ?_
      exact .inl (kept.resolve_right (Set.notMem_empty id))
    | authorize nodeId presented written =>
      rw [authorize_member,(authorize_config l nodeId presented written).1,(authorize_config l nodeId presented written).2] at reached
      unfold Shown
      tauto

def Written : Prop :=
  ∀ nodeId presented written,Event.authorize nodeId presented written ∈ events → written = true

theorem shown_saved (written : Written events) (clear : l.unsaved = ∅) :
    (l.run crates events).unsaved = ∅ ∧ ∀ id,l.Member id ∨ Shown crates l.token l.configured events id →
      (l.run crates events).Member id := by
  induction events generalizing l with
  | nil => exact ⟨clear,fun id held => held.resolve_right fun shown => shown⟩
  | cons event later ih =>
    have rest : Written later := fun nodeId presented flag among => written nodeId presented flag (List.mem_cons_of_mem _ among)
    cases event with
    | restart token trusted =>
      obtain ⟨empty,kept⟩ := @ih (l.handle crates (.restart token trusted)) rest rfl
      refine ⟨empty,fun id held => kept id (held.imp_left fun member => ?_)⟩
      rw [Ledger.Member,clear] at member
      exact .inl (member.resolve_right (Set.notMem_empty id))
    | authorize nodeId presented flag =>
      obtain rfl := written nodeId presented flag List.mem_cons_self
      have still : (l.handle crates (.authorize nodeId presented true)).unsaved = ∅ := by
        simp only [Ledger.handle,if_true]
        split_ifs
        · rfl
        · exact clear
      obtain ⟨empty,kept⟩ := ih rest still
      refine ⟨empty,fun id held => kept id ?_⟩
      rw [authorize_member,(authorize_config l nodeId presented true).1,(authorize_config l nodeId presented true).2]
      unfold Shown at held
      tauto

-- What a run leaves: the admitted are the keys configured at the last start and
-- the members, the file holds the saved ones, and no one is there without a
-- proof. Where every write went through the members are all who proved it. A
-- key that only a configuration listed is in no file, and a start without it
-- ends its admission.
theorem admitted_ledger (crates : ClusterCrates) (token : Str) (trusted : List Str) (events : List Event) :
    let admission := (TokenAdmission.new token none trusted).run crates events
    let l := (Ledger.new token trusted).run crates events
    (∀ id,id ∈ admission.admitted ↔ id ∈ l.configured ∨ l.Member id) ∧
    (∀ id,admission.stored id ↔ id ∈ l.saved) ∧
    (∀ id,l.Member id → Shown crates token trusted events id) ∧
    (Written events → ∀ id,l.Member id ↔ Shown crates token trusted events id) ∧
    ∀ id,¬Shown crates token trusted events id → ¬admission.stored id ∧
      ∀ token' trusted',id ∉ trusted' → id ∉ (admission.handle crates (.restart token' trusted')).admitted := by
  have keeps := (new_keeps token trusted).run crates events
  have proved (id : Str) (member : ((Ledger.new token trusted).run crates events).Member id) :
      Shown crates token trusted events id := by
    rcases member_shown events id member with before | shown
    · exact absurd before (by simp [Ledger.new,Ledger.Member])
    · exact shown
  intro admission l
  refine ⟨fun id => ?_,keeps.stored,proved,fun written id => ⟨proved id,fun shown => ?_⟩,fun id unproved => ⟨fun stored => ?_,?_⟩⟩
  · rw [TokenAdmission.mem_admitted keeps.live,keeps.configured,keeps.pinned]
  · exact (shown_saved events written rfl).2 id (.inr shown)
  · exact unproved (proved id (.inl ((keeps.stored id).mp stored)))
  · intro token' trusted' removed admitted
    have after := keeps.handle crates (.restart token' trusted')
    rw [TokenAdmission.mem_admitted after.live,after.configured,after.pinned] at admitted
    rcases admitted with listed | kept
    · exact removed listed
    · exact unproved (proved id (.inl (kept.resolve_right (Set.notMem_empty id))))

end Ledgers

section Runs
open Sample

def unwritten : List Event := [.authorize alice (some (ticket crates token alice)) false,.restart token []]

theorem unwritten_forgets : alice ∉ ((TokenAdmission.new token none []).run crates unwritten).admitted := by decide

theorem pin_lost : Shown crates token [] unwritten alice ∧
    alice ∈ ((TokenAdmission.new token none []).run crates (unwritten.take 1)).admitted ∧
    ¬∀ id,id ∈ ((TokenAdmission.new token none []).run crates unwritten).admitted ↔
      id ∈ ((TokenAdmission.new token none []).run crates unwritten).configured ∨ Shown crates token [] unwritten id := by
  have valid : parseNodeId crates alice = .ok aliceKey := by decide
  have shown : Shown crates token [] unwritten alice := .inl ⟨rfl,by simp,⟨aliceKey,valid⟩,rfl⟩
  refine ⟨shown,by decide,fun same => ?_⟩
  exact unwritten_forgets ((same alice).mpr (.inr shown))

end Runs

end Pins
end HologramLive.Cluster
