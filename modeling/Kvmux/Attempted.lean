import Mathlib.Data.List.Basic
import Kvmux.Failover
import Kvmux.Recording

namespace Kvmux.Attempted
open Coroutine CircuitBreaker Gateway OpenAi Streaming Attempt Handling Recording Failover

abbrev Happened := Event Op.Reply Wait.Answer

-- A breaker that does not let the request through, or a backend without a free slot.
def refuses : Happened → Bool
  | .did (.allowRequest _) dec => !Decision.allowed dec
  | .did (.tryAcquire _) taken => !(taken : Bool)
  | _ => false

def Unrefused (t : Trace) : Prop := ∀ event ∈ t, refuses event = false

def unasking : Op → Bool
  | .allowRequest _ | .tryAcquire _ => false
  | _ => true

theorem Unrefused.append (one : Unrefused first) (two : Unrefused second) : Unrefused (first ++ second) :=
  List.forall_mem_append.mpr ⟨one,two⟩

theorem unasking_unrefused (quiet : ∀ op reply, .did op reply ∈ t → unasking op = true) : Unrefused t := by
  intro event member
  cases event with
  | got point answer => rfl
  | did op reply =>
    have plain := quiet op reply member
    cases op <;> first | rfl | cases plain

theorem records_unrefused {p : Prog α} (records : Records unasking p post) (path : Runs p t value) : Unrefused t :=
  unasking_unrefused fun _ _ member => records.did path member

theorem attempt_unrefused (path : Runs (attempt env job labels b isProbe more) t verdict) : Unrefused t :=
  records_unrefused (attempt_records ⟨rfl,fun _ _ _ => rfl,fun _ _ _ => rfl⟩ job b isProbe more) path

section Split
variable {X : Type} {e : X}

theorem split_after (fresh : e ∉ first) (same : first ++ second = past ++ e :: after) :
    ∃ before, past = first ++ before ∧ second = before ++ e :: after := by
  induction first generalizing past with
  | nil => exact ⟨past,rfl,same⟩
  | cons x rest ih =>
    obtain ⟨other,later⟩ := not_or.mp (mt List.mem_cons.mpr fresh)
    cases past with
    | nil => exact absurd (List.cons.inj same).1.symm other
    | cons y more =>
      obtain ⟨rfl,equal⟩ := List.cons.inj same
      obtain ⟨before,rfl,split⟩ := ih later equal
      exact ⟨before,rfl,split⟩

theorem split_before (fresh : e ∉ last) (same : middle ++ last = past ++ e :: after) :
    ∃ rest, middle = past ++ e :: rest ∧ after = rest ++ last := by
  rcases List.append_eq_append_iff.mp same with ⟨more,rfl,tail⟩ | ⟨more,rfl,tail⟩
  · exact absurd (tail ▸ List.mem_append_right more List.mem_cons_self) fresh
  · cases more with
    | nil =>
      rw [List.nil_append] at tail
      exact absurd (tail ▸ List.mem_cons_self) fresh
    | cons x rest =>
      obtain ⟨rfl,rfl⟩ := List.cons.inj tail
      exact ⟨rest,rfl,rfl⟩

end Split
section Walks
variable {env : Env} {job : Job} {b : Nat} {answer : Except Fault Unit}

theorem dispatched_shown (past after : Trace) : dispatches (notes (past ++ .got (.connect b) answer :: after)) ≠ [] := by
  rw [notes_append,dispatches_append]
  exact List.append_ne_nil_of_right_ne_nil _ (List.cons_ne_nil b _)

theorem undispatched_fresh (none : dispatches (notes t) = []) : .got (.connect b) answer ∉ t := by
  intro member
  obtain ⟨past,after,rfl⟩ := List.append_of_mem member
  exact dispatched_shown past after none

theorem unnoted_fresh (silent : notes t = []) : .got (.connect b) answer ∉ t :=
  undispatched_fresh (by rw [silent]; rfl)

-- A stretch of a walk between two attempts shows reports at most.
def Idle (t : Trace) : Prop := ∀ shown ∈ notes t, ∃ b report isProbe, shown = .reported b report isProbe

theorem Idle.blank {Y : Type} {view : Note → Option Y} (idle : Idle t)
    (blind : ∀ b report isProbe, view (.reported b report isProbe) = none) : (notes t).filterMap view = [] := by
  apply List.filterMap_eq_nil_iff.mpr
  intro shown member
  obtain ⟨b,report,isProbe,rfl⟩ := idle shown member
  exact blind b report isProbe

theorem Idle.dispatches (idle : Idle t) : dispatches (notes t) = [] := idle.blank fun _ _ _ => rfl

theorem Idle.writes (idle : Idle t) : writes (notes t) = [] := idle.blank fun _ _ _ => rfl

theorem Idle.append (one : Idle first) (two : Idle second) : Idle (first ++ second) := by
  intro shown member
  rw [notes_append] at member
  exact (List.mem_append.mp member).elim (one shown) (two shown)

theorem idle_lead (silent : notes first = []) (reported : Idle second) : Idle (first ++ second) := by
  intro shown member
  rw [notes_append,silent] at member
  exact reported shown member

-- One candidate of a walk: it is passed over, tried in vain, or tried last.
inductive Stepped (env : Env) (job : Job) (spills : Nat) (c : Nat) (rest : List Nat) (attempts : Nat) :
    Trace → Outcome → Prop where
  | passedOver : Idle lead → (∃ event ∈ lead, refuses event = true) →
      Runs (walk env job spills rest attempts spilled labels) w outcome →
      Stepped env job spills c rest attempts (lead ++ w) outcome
  | triedInVain : Idle lead → Runs (attempt env job labels c isProbe (attempts + 1 < maxAttempts && rest != [])) tried .next →
      Runs (walk env job spills rest (attempts + 1) spilled labels) w outcome →
      Stepped env job spills c rest attempts (lead ++ (tried ++ .did (.releaseSlot c) () :: w)) outcome
  | triedLast : Idle lead →
      Runs (attempt env job labels c isProbe (attempts + 1 < maxAttempts && rest != [])) tried (.finish outcome) →
      Stepped env job spills c rest attempts (lead ++ (tried ++ [.did (.releaseSlot c) ()])) outcome

theorem walk_cases (path : Runs (walk env job spills (c :: rest) attempts spilled labels) t outcome) :
    maxAttempts ≤ attempts ∧ Runs (exhausted env job labels) t outcome ∨
    attempts < maxAttempts ∧ Stepped env job spills c rest attempts t outcome := by
  unfold walk at path
  split at path
  · rename_i spent
    exact .inl ⟨spent,path⟩
  · rename_i left
    refine .inr ⟨Nat.lt_of_not_le left,?_⟩
    obtain ⟨spill,_,tail,rfl,recorded,asking⟩ := runs_bind.mp path
    have passive := passive_notes ((recordSpills_looking spills spilled _).runs recorded)
    obtain ⟨dec,tail,rfl,decided⟩ := runs_perform.mp asking
    split at decided
    · rename_i denied
      rw [List.append_cons]
      refine .passedOver ?_ ⟨.did (.allowRequest c) dec,by simp,denied⟩ decided
      exact idle_lead passive (List.forall_mem_nil _)
    · obtain ⟨taken,tail,rfl,slotted⟩ := runs_perform.mp decided
      cases taken with
      | false =>
        obtain ⟨_,tail,rfl,walking⟩ := runs_perform.mp slotted
        have joined : ∀ x y z : Happened, spill ++ x :: y :: z :: tail = spill ++ [x,y,z] ++ tail := by simp
        rw [joined]
        refine .passedOver ?_ ⟨.did (.tryAcquire c) false,by simp,rfl⟩ walking
        exact idle_lead passive (List.forall_mem_singleton.mpr ⟨c,_,_,rfl⟩)
      | true =>
        obtain ⟨tried,verdict,tail,rfl,trying,releasing⟩ := runs_bind.mp slotted
        obtain ⟨_,w,rfl,walking⟩ := runs_perform.mp releasing
        have joined : ∀ (x y : Happened) (more : Trace), spill ++ x :: y :: more = spill ++ [x,y] ++ more := by simp
        have idle : Idle (spill ++ [.did (.allowRequest c) dec,.did (.tryAcquire c) true]) :=
          idle_lead passive (List.forall_mem_nil _)
        rw [joined]
        cases verdict with
        | next => exact .triedInVain idle trying walking
        | finish result =>
          obtain ⟨rfl,rfl⟩ := runs_ret.mp walking
          exact .triedLast idle trying

-- What follows a dispatch up to the end of the walk.
inductive Continued (env : Env) (job : Job) (b : Nat) (answer : Except Fault Unit) : Trace → Outcome → Prop where
  | finished : Tried env job labels b isProbe more (.got (.connect b) answer :: exchange) (.finish outcome) → Unrefused exchange →
      Continued env job b answer (exchange ++ [.did (.releaseSlot b) ()]) outcome
  | handedOn :
      Tried env job labels b isProbe (attempts + 1 < maxAttempts && rest != []) (.got (.connect b) answer :: exchange) .next →
      Unrefused exchange → Runs (walk env job spills rest (attempts + 1) spilled last) w outcome →
      Continued env job b answer (exchange ++ .did (.releaseSlot b) () :: w) outcome

-- A dispatch is the first event of the attempt, or comes after it.
theorem attempt_split (trying : Runs (attempt env job labels c isProbe more) tried verdict)
    (split : tried ++ .did (.releaseSlot c) () :: w = past ++ .got (.connect b) answer :: after) :
    (c = b ∧ past = [] ∧ ∃ inner, tried = .got (.connect b) answer :: inner ∧ Unrefused inner ∧
      after = inner ++ .did (.releaseSlot c) () :: w) ∨
    ∃ before, past = tried ++ .did (.releaseSlot c) () :: before ∧ w = before ++ .got (.connect b) answer :: after := by
  have own := attempt_unrefused trying
  have story := attempt_runs trying
  have one : dispatches (notes tried) = [c] := by
    cases verdict with
    | next => exact (tried_next story).1
    | finish outcome => exact (tried_finish story).one
  obtain ⟨first,inner,rfl⟩ := tried_opens story
  have fresh : .got (.connect b) answer ∉ inner := undispatched_fresh (List.cons.inj one).2
  cases past with
  | nil =>
    obtain ⟨same,tail⟩ := List.cons.inj split
    cases same
    exact .inl ⟨rfl,rfl,inner,rfl,(List.forall_mem_cons.mp own).2,tail.symm⟩
  | cons x more =>
    obtain ⟨rfl,tail⟩ := List.cons.inj split
    obtain ⟨middle,rfl,rest⟩ := split_after fresh tail
    cases middle with
    | nil => cases (List.cons.inj rest).1
    | cons y before =>
      obtain ⟨rfl,last⟩ := List.cons.inj rest
      exact .inr ⟨before,rfl,last⟩

theorem walk_attempt (path : Runs (walk env job spills order attempts spilled labels) t outcome)
    (split : t = past ++ .got (.connect b) answer :: after) :
    Refused (writes (notes past)) ∧ Continued env job b answer after outcome := by
  induction order generalizing attempts spilled labels t past with
  | nil =>
    rw [split] at path
    exact absurd (answered_undispatched (respond_runs path)) (dispatched_shown past after)
  | cons c rest ih =>
    have later : ∀ {lead more : Trace}, Idle lead → Refused (writes (notes more)) →
        Refused (writes (notes (lead ++ more))) := by
      intro lead more idle refused
      rwa [notes_append,writes_append,idle.writes,List.nil_append]
    rcases walk_cases path with ⟨-,answering⟩ | ⟨-,stepped⟩
    · rw [split] at answering
      exact absurd (answered_undispatched (respond_runs answering)) (dispatched_shown past after)
    · cases stepped with
      | passedOver idle _ walking =>
        obtain ⟨before,rfl,rest⟩ := split_after (undispatched_fresh idle.dispatches) split
        obtain ⟨refused,continued⟩ := ih walking rest
        exact ⟨later idle refused,continued⟩
      | triedInVain idle trying walking =>
        obtain ⟨before,rfl,rest⟩ := split_after (undispatched_fresh idle.dispatches) split
        rcases attempt_split trying rest with ⟨rfl,rfl,inner,rfl,own,rfl⟩ | ⟨more,rfl,beyond⟩
        · exact ⟨later idle refused_nil,.handedOn (attempt_runs trying) own walking⟩
        · obtain ⟨refused,continued⟩ := ih walking beyond
          refine ⟨later idle ?_,continued⟩
          rw [notes_append,writes_append]
          exact (tried_next (attempt_runs trying)).2.append refused
      | triedLast idle trying =>
        obtain ⟨before,rfl,rest⟩ := split_after (undispatched_fresh idle.dispatches) split
        rcases attempt_split trying rest with ⟨rfl,rfl,inner,rfl,own,rfl⟩ | ⟨more,rfl,beyond⟩
        · exact ⟨later idle refused_nil,.finished (attempt_runs trying) own⟩
        · exact absurd beyond (by simp)

-- A walk that dispatches no more passes over all that is left and gives up.
theorem walk_idle (path : Runs (walk env job spills order attempts spilled labels) t outcome)
    (none : dispatches (notes t) = []) :
    ∃ lead end_ last, t = lead ++ end_ ∧ Idle lead ∧ Answered last job.keepAlive 503
      (errorJson env .noBackend (text "no eligible backend could serve the request") []) end_ outcome ∧
      ((attempts < maxAttempts && order != []) = true → ∃ event ∈ lead, refuses event = true) ∧
      ((attempts < maxAttempts && order != []) = false → lead = []) := by
  induction order generalizing attempts spilled labels t with
  | nil => exact ⟨[],t,labels,rfl,List.forall_mem_nil _,respond_runs path,by simp,fun _ => rfl⟩
  | cons c rest ih =>
    rcases walk_cases path with ⟨spent,answering⟩ | ⟨left,stepped⟩
    · exact ⟨[],t,labels,rfl,List.forall_mem_nil _,respond_runs answering,by simp [Nat.not_lt.mpr spent],fun _ => rfl⟩
    · cases stepped with
      | passedOver idle refused walking =>
        rename_i lead spilled labels w
        rw [notes_append,dispatches_append,idle.dispatches] at none
        obtain ⟨more,end_,last,rfl,quiet,answered,-⟩ := ih walking none
        obtain ⟨event,member,refuses⟩ := refused
        refine ⟨lead ++ more,end_,last,by simp,idle.append quiet,answered,?_,by simp [left]⟩
        exact fun _ => ⟨event,List.mem_append_left _ member,refuses⟩
      | triedInVain _ trying | triedLast _ trying =>
        obtain ⟨answer,inner,rfl⟩ := tried_opens (attempt_runs trying)
        exact absurd none (by rw [List.cons_append]; exact dispatched_shown _ _)

end Walks
section Requests
variable {env : Env} {req : Request} {b : Nat} {answer : Except Fault Unit}

-- A dispatch within a whole request: nothing was sent before it, and after the
-- walk the request shows and asks nothing.
structure Attempting (env : Env) (req : Request) (b : Nat) (answer : Except Fault Unit) (past after : Trace) (job : Job)
    (outcome : Outcome) (walked : Trace) : Prop where
  parsed : requested env req = some job.creq
  keepAlive : job.keepAlive = req.keepAlive
  before : Refused (writes (notes past))
  continued : Continued env job b answer walked outcome
  behind : ∃ tail, after = walked ++ tail ∧ notes tail = [] ∧ Unrefused tail

theorem Attempting.around (inner : Attempting env req b answer past after job outcome walked) (lead : notes first = [])
    (silent : notes last = []) (quiet : Unrefused last) :
    Attempting env req b answer (first ++ past) (after ++ last) job outcome walked := by
  obtain ⟨tail,rfl,shown,unrefused⟩ := inner.behind
  refine ⟨inner.parsed,inner.keepAlive,?_,inner.continued,tail ++ last,by simp,by simp [shown,silent],unrefused.append quiet⟩
  rw [notes_append,lead]
  exact inner.before

theorem respond_attempt
    (path : Runs (respond labels keepAlive status body) (past ++ .got (.connect b) answer :: after) outcome) : False :=
  dispatched_shown past after (answered_undispatched (respond_runs path))

theorem admitted_attempt (parsed : requested env req = some creq)
    (path : Runs (admitted env creq req.keepAlive labels) t outcome)
    (split : t = past ++ .got (.connect b) answer :: after) :
    ∃ job walked, Attempting env req b answer past after job outcome walked := by
  unfold admitted at path
  obtain ⟨tAdmitted,rest,rfl,publishing⟩ := runs_perform.mp path
  obtain ⟨_,rest,rfl,snapping⟩ := runs_perform.mp publishing
  obtain ⟨looks,candidates,rest,rfl,snapped,choosing⟩ := runs_bind.mp snapping
  have looked := (looking_silent (snapshot_looking _)).notes snapped
  have silent : notes (.did .now tAdmitted :: .did .publishAdmissionGauges () :: looks) = [] := looked
  rw [← List.cons_append,← List.cons_append] at split
  obtain ⟨before,rfl,rest⟩ := split_after (unnoted_fresh silent) split
  split at choosing
  · rw [rest] at choosing
    exact (respond_attempt choosing).elim
  · obtain ⟨turns,ordered,more,rfl,ordering,walking⟩ := runs_bind.mp choosing
    have turned := (looking_silent (orderCandidates_looking env creq candidates)).notes ordering
    obtain ⟨later,rfl,last⟩ := split_after (unnoted_fresh turned) rest
    cases ordered with
    | none =>
      obtain ⟨rfl,rfl⟩ := runs_ret.mp walking
      exact absurd last (by simp)
    | some ordered =>
      dsimp only at walking
      split at walking
      · obtain ⟨rfl,rfl⟩ := runs_ret.mp walking
        exact absurd last (by simp)
      · obtain ⟨refused,continued⟩ := walk_attempt walking last
        refine ⟨_,after,parsed,rfl,?_,continued,[],(List.append_nil after).symm,rfl,List.forall_mem_nil _⟩
        rw [notes_append,notes_append,silent,turned]
        exact refused

theorem serve_attempt (parsed : requested env req = some creq) (path : Runs (serve env creq req.keepAlive labels) t outcome)
    (split : t = past ++ .got (.connect b) answer :: after) :
    ∃ job walked, Attempting env req b answer past after job outcome walked := by
  unfold serve at path
  obtain ⟨gate,⟨status,queuedFor⟩,rest,rfl,acquiring,recording⟩ := runs_bind.mp path
  obtain ⟨_,rest,rfl,serving⟩ := runs_perform.mp recording
  have silent : notes (gate ++ [.did (.record (.observeQueueTime labels (seconds queuedFor))) ()]) = [] := by
    rw [notes_append,acquire_silent.notes acquiring]
    rfl
  rw [List.append_cons] at split
  obtain ⟨before,rfl,more⟩ := split_after (unnoted_fresh silent) split
  cases status with
  | admitted =>
    obtain ⟨inner,result,tail,rfl,admitting,releasing⟩ := runs_bind.mp serving
    obtain ⟨_,tail,rfl,ending⟩ := runs_perform.mp releasing
    obtain ⟨rfl,rfl⟩ := runs_ret.mp ending
    obtain ⟨rest,own,rfl⟩ := split_before (unnoted_fresh rfl) more
    obtain ⟨job,walked,attempting⟩ := admitted_attempt parsed admitting own
    exact ⟨job,walked,attempting.around silent rfl (by simp [Unrefused,refuses])⟩
  | queueFull | queueTimeout =>
    rw [more] at serving
    exact (respond_attempt serving).elim

theorem chatBody_attempt (path : Runs (chatBody env req labels) t outcome)
    (split : t = past ++ .got (.connect b) answer :: after) :
    ∃ job walked, Attempting env req b answer past after job outcome walked := by
  unfold chatBody at path
  subst split
  split at path
  · exact (respond_attempt path).elim
  · rename_i body found
    split at path
    · split at path
      · obtain ⟨none,-⟩ := runs_ret.mp path
        exact absurd none (by simp)
      · exact (respond_attempt path).elim
    · rename_i creq parsed
      dsimp only at path
      split at path
      · exact (respond_attempt path).elim
      · exact serve_attempt (by simp [requested,found,parsed,Except.toOption]) path rfl

theorem handleChat_attempt (path : Runs (handleChat env req) t exit) (split : t = past ++ .got (.connect b) answer :: after) :
    ∃ job outcome walked, outcome.exit = exit ∧ Attempting env req b answer past after job outcome walked := by
  unfold handleChat at path
  obtain ⟨tArrive,rest,rfl,chatting⟩ := runs_perform.mp path
  obtain ⟨inner,outcome,rest,rfl,chatted,recording⟩ := runs_bind.mp chatting
  obtain ⟨last,_,rest,rfl,recorded,ending⟩ := runs_bind.mp recording
  obtain ⟨rfl,rfl⟩ := runs_ret.mp ending
  have looking := recordTerminal_looking outcome tArrive
  have silent := (looking_silent looking).notes recorded
  have quiet : Unrefused last := by
    apply unasking_unrefused
    intro op reply member
    have passive := looking.runs recorded _ member
    cases op <;> first | rfl | exact passive.elim
  rw [List.append_nil,← List.singleton_append] at split
  obtain ⟨before,rfl,more⟩ := split_after (unnoted_fresh rfl) split
  obtain ⟨rest,own,rfl⟩ := split_before (unnoted_fresh silent) more
  obtain ⟨job,walked,attempting⟩ := chatBody_attempt chatted own
  exact ⟨job,outcome,walked,rfl,attempting.around rfl silent quiet⟩

end Requests
end Kvmux.Attempted
