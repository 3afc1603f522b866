import HologramLive.History.Ordering
namespace HologramLive.History
open Tables Rpc Runs Linear Task State List Option

variable {settings : Settings} {s t : State} {i j : Nat} {call other : Task} {order : List (Entry Op Answer)} {digest id : Str}
  {files after : Files} {answer : Answer} {conversation before : Conversation} {outside : Outside} {op : Op}

theorem pathFor_ok (path : pathFor id = .ok digest) : id = "blake3:".toList ++ digest := by
  unfold pathFor at path
  split at path
  · cases path
  · rename_i rest shape
    split at path
    · cases path
      exact (append_eq_of_isPrefixOf?_eq_some shape).symm
    · cases path

theorem get_ok (got : get files id = .ok conversation) :
    ∃ digest,pathFor id = .ok digest ∧ files[digest]? = some conversation := by
  unfold get at got
  split at got
  · cases got
  · rename_i digest path
    split at got
    · cases got
    · rename_i found
      cases got
      exact ⟨digest,path,found⟩

theorem get_found (path : pathFor id = .ok digest) (found : files[digest]? = some conversation) :
    get files id = .ok conversation := by
  simp only [get,path,found]

theorem changed_id : (changed outside conversation op).id = conversation.id := by
  cases op <;> rfl

theorem Writes.serial (writes : Writes settings files op conversation) :
    ∃ outside,serial settings files outside op = persistUnlocked files conversation ∧
      ∀ includeArchived,op ≠ .list includeArchived := by
  rcases writes with ⟨title,now,rfl,new⟩ | ⟨id,before,outside,target,passed,got,rfl⟩
  · exact ⟨⟨now,now,[]⟩,by simp only [History.serial,new],fun _ never => nomatch never⟩
  · refine ⟨outside,?_,?_⟩
    · cases op with
      | append | appendExchange | setArchived => cases target; simp only [History.serial,passed,got]
      | create | list | get | delete => cases target
    · rintro includeArchived rfl
      cases target

theorem rename_ordered (ordered : Ordered settings s order) (there : s.calls[i]? = some call)
    (phase : call.phase = .writing conversation)
    (allowed : ∀ digest,pathFor conversation.id = .ok digest → ∀ other ∈ s.calls,other.missed → ¬other.waitsFor digest) :
    ∃ later,Ordered settings (s.rename i call conversation) later := by
  have fits := ordered.fits i call there
  simp only [Fits,phase] at fits
  obtain ⟨held,writes⟩ := fits
  obtain ⟨outside,ran,unlisted⟩ := writes.serial
  have unlocked : ∀ j,j ≠ i → s.lock = some j → none = some j := by
    intro j apart other
    rw [held] at other
    exact absurd (Option.some.inj other).symm apart
  have pending : ∀ files,call.outcome files = none := fun files => by simp only [outcome,phase]
  unfold rename
  cases path : pathFor conversation.id with
  | error error =>
    have ran : Serial settings s.files call.op (.error error) s.files :=
      Serial.unlisted (by rw [ran]; simp only [persistUnlocked,path]) unlisted
    exact ⟨_,ordered.effect there (pending _) rfl ran (fun _ _ => rfl)
      (fun j other apart found => (ordered.fits j other found).pass rfl (unlocked j apart)) trivial ordered.keyed⟩
  | ok digest =>
    have ran : Serial settings s.files call.op (.ok (.conversation conversation)) (s.files.insert digest conversation) :=
      Serial.unlisted (by rw [ran]; simp only [persistUnlocked,path]) unlisted
    obtain ⟨later,marked⟩ := touch_ordered ordered digest
    have here : (s.touch digest).calls[i]? = some call := by
      simp only [touch,getElem?_map,there,map_some,unsee,phase,Phase.unsee]
      rw [←phase]
    have elsewhere : ∀ d,d ≠ digest → (s.files.insert digest conversation)[d]? = s.files[d]? := by
      intro d other
      rw [get_insert,if_neg fun same => other same.symm]
    refine ⟨_,marked.effect here (pending _) rfl ran ?_ ?_ trivial ?_⟩
    · intro other member
      refine outcome_elsewhere elsewhere fun names output reading => ?_
      obtain ⟨old,listed,before,was,missed⟩ := touched member reading
      intro waits
      have stale : before = true := by simpa [waits] using missed
      exact allowed digest path old listed (by simpa [Task.missed,was] using stale) (by simpa [waitsFor,was] using waits)
    · intro j other apart found
      have fits := marked.fits j other found
      cases reading : other.phase with
      | reading names output missed =>
        simp only [Fits,reading] at fits ⊢
        refine ⟨fits.1,fits.2.insert ?_⟩
        rintro rfl
        obtain ⟨_,_,_,_,missed⟩ := touched (mem_of_getElem? found) reading
        by_contra unlisted
        simp [unlisted] at missed
      | locked | writing =>
        simp only [Fits,reading] at fits; exact absurd (unlocked j apart fits.1) (by simp)
      | invoked | created | checked | unlinking | returned => simpa only [Fits,reading] using fits
    · intro d c found
      rw [get_insert] at found
      split at found
      · rename_i same; cases found
        exact same ▸ path
      · exact ordered.keyed d c found

-- The file that a change was read from is the one that it is written to.
theorem Writes.erase (writes : Writes settings files op conversation) (keyed : Keyed files)
    (apart : pathFor conversation.id ≠ .ok digest) : Writes settings (files.erase digest) op conversation := by
  rcases writes with created | ⟨id,before,outside,target,passed,got,rfl⟩
  · exact .inl created
  · refine .inr ⟨id,before,outside,target,passed,?_,rfl⟩
    obtain ⟨d,path,found⟩ := get_ok got
    refine get_found path ?_
    have other : digest ≠ d := by
      rintro rfl
      rw [changed_id] at apart
      exact apart (keyed digest before found)
    rw [get_erase,if_neg other]
    exact found

theorem unlink_ordered (ordered : Ordered settings s order) (there : s.calls[i]? = some call)
    (phase : call.phase = .unlinking digest)
    (allowed : digest ∈ s.files ∧ ∀ other ∈ s.calls,¬other.writes digest ∧ ¬other.waitsFor digest) :
    ∃ later,Ordered settings (s.unlink settings i call digest) later := by
  have fits := ordered.fits i call there
  simp only [Fits,phase] at fits
  obtain ⟨id,deletes,path⟩ := fits
  obtain ⟨present,alone⟩ := allowed
  obtain ⟨conversation,found⟩ := isSome_iff_exists.mp (Std.ExtTreeMap.isSome_getElem?_iff_mem.mpr present)
  have pending : ∀ files,call.outcome files = none := fun files => by simp only [outcome,phase]
  have ran : Serial settings s.files call.op (.ok .done) (s.files.erase digest) := by
    refine @Serial.unlisted _ s _ _ _ ⟨0,0,[]⟩ ?_ ?_
    · simp only [deletes,serial,path]
    · rw [deletes]
      exact fun _ never => by cases never
  obtain ⟨later,marked⟩ := touch_ordered ordered digest
  have here : (s.touch digest).calls[i]? = some call := by
    simp only [touch,getElem?_map,there,map_some,unsee,phase,Phase.unsee]
    rw [←phase]
  have elsewhere : ∀ d,d ≠ digest → (s.files.erase digest)[d]? = s.files[d]? := by
    intro d other
    rw [get_erase,if_neg fun same => other same.symm]
  -- No listing waits for the file, so each of them has missed its removal.
  have stale : ∀ other ∈ (s.touch digest).calls,∀ names output missed,other.phase = .reading names output missed →
      digest ∉ names ∧ missed = true := by
    intro other member names output missed reading
    obtain ⟨old,listed,before,was,marks⟩ := touched member reading
    have apart : digest ∉ names := by
      intro waits
      exact (alone old listed).2 (by simpa [waitsFor,was] using waits)
    exact ⟨apart,by simp [marks,apart]⟩
  unfold unlink
  simp only [found]
  refine ⟨_,marked.effect here (pending _) rfl ran ?_ ?_ trivial ?_⟩
  · intro other member
    exact outcome_elsewhere elsewhere fun names output reading => (stale other member names output true reading).1
  · intro j other apart listed
    have fits := marked.fits j other listed
    have member := mem_of_getElem? listed
    cases reading : other.phase with
    | reading names output missed =>
      obtain ⟨unlisted,missed⟩ := stale other member names output missed reading
      subst missed
      simp only [Fits,reading] at fits ⊢
      exact ⟨fits.1,fits.2.erase unlisted⟩
    | writing conversation =>
      simp only [Fits,reading] at fits ⊢
      refine ⟨fits.1,fits.2.erase marked.keyed ?_⟩
      obtain ⟨old,before,shape⟩ := mem_map.mp member
      obtain ⟨op,after,was⟩ := old
      intro same
      cases was with
      | writing _ =>
        subst shape; cases reading
        exact (alone _ before).1 same
      | invoked | created | checked | locked | unlinking | reading | returned =>
        subst shape; cases reading
    | invoked | returned => simp only [Fits,reading]
    | created | checked | locked | unlinking => simp only [Fits,reading] at fits ⊢; exact fits
  · intro d c listed
    rw [get_erase] at listed
    split at listed
    · cases listed
    · exact ordered.keyed d c listed

theorem invoke_ordered (ordered : Ordered settings s order) (there : s.calls[i]? = some call) (phase : call.phase = .invoked)
    (ran : s.invoke settings i call outside = some t) : ∃ later,Ordered settings t later := by
  have pending : call.outcome s.files = none := by simp only [outcome,phase]
  have answers : ∀ answer,Serial settings s.files call.op answer s.files →
      ∃ later,Ordered settings (s.setPhase i call (.returned answer)) later := by
    intro answer serial
    have placed : Ordered settings {s.setPhase i call (.returned answer) with files := s.files, lock := s.lock} _ :=
      ordered.effect there pending rfl serial (fun _ _ => rfl) (fun j other _ found => ordered.fits j other found) trivial
        ordered.keyed
    exact ⟨_,placed⟩
  have goes : ∀ next,({call with phase := next} : Task).outcome s.files = none → Fits settings s i {call with phase := next} →
      ∃ later,Ordered settings (s.setPhase i call next) later := by
    intro next same fits
    have quiet : Ordered settings {s.setPhase i call next with lock := s.lock} order :=
      ordered.quiet there (same.trans pending.symm) (fun _ _ held => held) fits
    exact ⟨order,quiet⟩
  unfold invoke at ran
  cases op : call.op with
  | create title =>
    simp only [op] at ran
    cases new : newConversation settings title outside.now with
    | error error =>
      simp only [new,Option.some.injEq] at ran
      subst ran
      refine answers _ ?_
      rw [op]
      exact @Serial.unlisted _ s _ _ _ outside (by simp only [serial,new]) fun _ never => by cases never
    | ok conversation =>
      simp only [new,Option.some.injEq] at ran
      subst ran
      exact goes _ rfl ⟨title,outside.now,op,new⟩
  | list includeArchived =>
    simp only [op] at ran
    split at ran
    · rename_i directory
      cases ran
      have perm := isPerm_iff.mp directory
      refine goes _ rfl ⟨⟨includeArchived,op⟩,?_,?_⟩
      · intro digest member; exact Std.ExtTreeMap.mem_keys.mp (perm.mem_iff.mp member)
      · intro _; exact ⟨[],perm,rfl⟩
    · cases ran
  | get id =>
    simp only [op,Option.some.injEq] at ran
    subst ran
    refine answers _ ?_
    rw [op]
    exact @Serial.unlisted _ s _ _ _ outside rfl fun _ never => by cases never
  | delete id =>
    simp only [op] at ran
    cases path : pathFor id with
    | error error =>
      simp only [path,Option.some.injEq] at ran
      subst ran
      refine answers _ ?_
      rw [op]
      exact @Serial.unlisted _ s _ _ _ outside (by simp only [serial,path]) fun _ never => by cases never
    | ok digest =>
      simp only [path] at ran
      split at ran
      · cases ran; exact goes _ rfl ⟨id,op,path⟩
      · rename_i absent; cases ran
        refine answers _ ?_
        rw [op]
        have unchanged : s.files.erase digest = s.files := by
          refine table_ext fun k => ?_
          rw [get_erase]; split
          · rename_i same; subst same
            exact (Std.ExtTreeMap.getElem?_eq_none absent).symm
          · rfl
        exact @Serial.unlisted _ s _ _ _ outside (by simp only [serial,path,unchanged]) fun _ never => by cases never
  | append | appendExchange | setArchived =>
    simp only [op] at ran
    split at ran
    · rename_i error failed
      cases ran
      refine answers _ ?_
      rw [op]
      exact @Serial.unlisted _ s _ _ _ outside (by simp only [serial,failed]) fun _ never => by cases never
    · rename_i passed
      cases ran
      exact goes _ rfl ⟨by rw [op]; rfl,by rw [op]; exact passed⟩

theorem readNext_ordered (ordered : Ordered settings s order) (there : s.calls[i]? = some call) {missed : Bool} (phase : call.phase = .reading names output missed) :
    ∃ later,Ordered settings (s.readNext settings i call output missed names) later := by
  have fits := ordered.fits i call there
  simp only [Fits,phase] at fits
  obtain ⟨⟨includeArchived,listing⟩,reads⟩ := fits
  cases names with
  | nil =>
    unfold readNext
    cases missed with
    | true =>
      have quiet : Ordered settings
          {s.setPhase i call (.returned (.ok (.conversations (newestFirst output)))) with lock := s.lock} order :=
        ordered.quiet there (by simp [outcome,phase]) (fun _ _ held => held) trivial
      exact ⟨order,quiet⟩
    | false =>
      obtain ⟨before,all,read⟩ := reads.current rfl
      rw [append_nil] at all
      have ran : Serial settings s.files call.op (.ok (.conversations (newestFirst output))) s.files := by
        refine ⟨⟨0,0,before⟩,all,?_⟩
        simp only [listing,serial,read,Op.includesArchived]
      have placed : Ordered settings {s.setPhase i call (.returned (.ok (.conversations (newestFirst output)))) with
          files := s.files, lock := s.lock} _ :=
        ordered.effect there (by simp only [outcome,phase]) rfl ran (fun _ _ => rfl)
          (fun j other _ found => ordered.fits j other found) trivial ordered.keyed
      exact ⟨_,placed⟩
  | cons digest names =>
    have present := reads.there digest mem_cons_self
    obtain ⟨conversation,found⟩ := isSome_iff_exists.mp (Std.ExtTreeMap.isSome_getElem?_iff_mem.mpr present)
    simp only [readNext,found]
    have quiet : Ordered settings {s.setPhase i call
        (.reading names (output ++ (seen s.files call.op.includesArchived digest).toList) missed) with lock := s.lock} order := by
      refine ordered.quiet there ?_ (fun _ _ held => held) ⟨⟨includeArchived,listing⟩,?_,?_⟩
      · cases missed with
        | true => cases shown : seen s.files call.op.includesArchived digest <;> simp [outcome,phase,shown]
        | false => simp [outcome,phase]
      · intro d member; exact reads.there d (mem_cons_of_mem digest member)
      · intro current
        obtain ⟨before,all,read⟩ := reads.current current
        refine ⟨before ++ [digest],by simpa using all,?_⟩
        rw [filterMap_append,←read]
        cases shown : seen s.files call.op.includesArchived digest <;> simp [shown]
    exact ⟨order,quiet⟩

theorem advance_ordered (ordered : Ordered settings s order) (there : s.calls[i]? = some call)
    (allowed : fine settings s (.step i outside)) (ran : s.advance settings i call outside = some t) :
    ∃ later,Ordered settings t later := by
  have allowed := allowed call there
  have fits := ordered.fits i call there
  have unlocked : s.lock = some i → ∀ j,j ≠ i → s.lock = some j → none = some j := by
    intro held j apart other
    rw [held] at other
    exact absurd (Option.some.inj other).symm apart
  unfold advance at ran
  cases phase : call.phase with
  | invoked => simp only [phase] at ran; exact invoke_ordered ordered there phase ran
  | created conversation =>
    simp only [phase] at ran
    simp only [Fits,phase] at fits
    split at ran
    · rename_i free
      cases ran
      refine ⟨order,ordered.quiet there (by simp only [outcome,phase]) ?_ ⟨rfl,.inl fits⟩⟩
      intro j _ held
      rw [free] at held
      cases held
    · cases ran
  | checked =>
    simp only [phase] at ran
    simp only [Fits,phase] at fits
    split at ran
    · rename_i free
      cases ran
      refine ⟨order,ordered.quiet there (by simp only [outcome,phase]) ?_ ⟨rfl,fits⟩⟩
      intro j _ held
      rw [free] at held
      cases held
    · cases ran
  | locked =>
    simp only [phase] at ran
    simp only [Fits,phase] at fits
    obtain ⟨held,_,passed⟩ := fits
    split at ran
    · cases ran
    · rename_i id target
      split at ran
      · rename_i error failed; cases ran
        have ran : Serial settings s.files call.op (.error error) s.files := by
          refine @Serial.unlisted _ s _ _ _ outside ?_ ?_
          · cases op : call.op with
            | append | appendExchange | setArchived =>
              rw [op] at target passed; cases target
              simp only [serial,passed,failed]
            | create | list | get | delete => rw [op] at target; cases target
          · intro includeArchived op; rw [op] at target
            cases target
        have placed : Ordered settings {s.setPhase i call (.returned (.error error)) with files := s.files, lock := none} _ :=
          ordered.effect there (by simp only [outcome,phase]) rfl ran (fun _ _ => rfl)
            (fun j other apart found => (ordered.fits j other found).pass rfl (unlocked held j apart)) trivial ordered.keyed
        exact ⟨_,placed⟩
      · rename_i before got; cases ran
        have quiet : Ordered settings {s.setPhase i call (.writing (changed outside before call.op)) with lock := s.lock} order :=
          ordered.quiet there (by simp only [outcome,phase]) (fun _ _ held => held)
            ⟨held,.inr ⟨id,before,outside,target,passed,got,rfl⟩⟩
        exact ⟨order,quiet⟩
  | writing conversation =>
    simp only [phase,Option.some.injEq] at ran
    simp only [Allowed,phase] at allowed
    subst ran
    exact rename_ordered ordered there phase allowed
  | unlinking digest =>
    simp only [phase,Option.some.injEq] at ran
    simp only [Allowed,phase] at allowed
    subst ran
    exact unlink_ordered ordered there phase allowed
  | reading names output missed =>
    simp only [phase,Option.some.injEq] at ran
    subst ran
    exact readNext_ordered ordered there phase
  | returned answer => simp only [phase] at ran; cases ran

theorem call_ordered (ordered : Ordered settings s order) (op : Op) :
    Ordered settings {s with calls := s.calls ++ [⟨op,s.doneCalls,.invoked⟩]} order := by
  refine ⟨?_,?_,ordered.keyed⟩
  · have returned : ∀ i ∈ s.doneCalls,i ∈ order.map (·.call) := by
      intro i member
      have finished := (mem_filter.mp member).2
      cases there : s.calls[i]? with
      | none => rw [there] at finished; cases finished
      | some call =>
        simp only [there,any_some,hasReturned] at finished
        refine ordered.grown.whole i (call.effect s.files) (by rw [getElem?_map,there]; rfl) ?_
        split at finished
        · rename_i phase; simp only [effect,outcome,phase,isSome_some]
        · cases finished
    have made := ordered.grown.made op returned
    rw [map_append]
    exact made
  · intro j call there
    by_cases old : j < s.calls.length
    · rw [getElem?_append_left old] at there
      exact (ordered.fits j call there).pass rfl id
    · rw [getElem?_append_right (Nat.le_of_not_lt old),getElem?_singleton] at there
      split at there <;> cases there
      trivial

theorem act_ordered (ordered : Ordered settings s order) (allowed : fine settings s action)
    (ran : act settings s action = some t) : ∃ later,Ordered settings t later := by
  cases action with
  | call op => cases ran; exact ⟨order,call_ordered ordered op⟩
  | step i outside =>
    obtain ⟨call,there,ran⟩ := bind_eq_some_iff.mp ran
    exact advance_ordered ordered there allowed ran

theorem reached_ordered (reached : Reached Start (Taken (act settings) (fine settings)) s) : ∃ order,Ordered settings s order := by
  refine reached.invariant (fun s => ∃ order,Ordered settings s order) ?_ ?_
  · intro s ⟨opened,keyed,_,calls⟩
    refine ⟨[],?_,?_,keyed⟩
    · rw [calls,opened]
      exact grown_start
    · intro i call there
      rw [calls] at there
      cases there
  · rintro s t _ ⟨order,ordered⟩ ⟨action,allowed,ran⟩
    exact act_ordered ordered allowed ran

end HologramLive.History
