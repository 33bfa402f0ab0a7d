import Mathlib.Data.List.Basic
import Kvmux.Fleet
import Kvmux.Holdings

namespace Kvmux.Settlement
open Coroutine CircuitBreaker Gateway Fleet Holdings Transition

def breakers (s : State) : List Breaker := s.backends.map Backend.breaker

-- Somebody still owes the probe of this backend its report.
def Holder (hs : List Holding) (b : Nat) : Prop :=
  ∃ (i : Nat) (h : Holding), hs[i]? = some h ∧ h.owed = some (b,true)

structure Watched (brs : List Breaker) (hs : List Holding) : Prop where
  holder : ∀ (b : Nat) (br : Breaker), brs[b]? = some br → br.state = .halfOpen → Holder hs b
  present : ∀ h ∈ hs, h.lost = false

def Inv (s : State) (hs : List Holding) : Prop := Watched (breakers s) hs

theorem holder_set {hs : List Holding} (own : hs[i]? = some h) (holder : Holder hs b)
    (keeps : h.owed = some (b,true) → after.owed = some (b,true)) : Holder (hs.set i after) b := by
  obtain ⟨j,other,found,owes⟩ := holder
  by_cases same : j = i
  · subst j
    rw [own] at found
    cases Option.some.inj found
    exact ⟨i,after,List.getElem?_set_self (List.getElem?_eq_some_iff.mp own).1,keeps owes⟩
  · exact ⟨j,other,by rw [List.getElem?_set_ne (Ne.symm same)]; exact found,owes⟩

theorem present_set {hs : List Holding} (present : ∀ h ∈ hs, h.lost = false) (stays : after.lost = false) :
    ∀ h ∈ hs.set i after, h.lost = false := by
  intro h member
  rcases List.mem_or_eq_of_mem_set member with old | rfl
  · exact present h old
  · exact stays

theorem unchanged_watched {hs : List Holding} {i : Nat} {h after : Holding} (inv : Inv s hs) (own : hs[i]? = some h)
    (owed : after.owed = h.owed) (lost : after.lost = h.lost) (same : breakers next = breakers s) :
    Inv next (hs.set i after) := by
  unfold Inv
  rw [same]
  refine ⟨?_,present_set inv.present (lost.trans (inv.present h (List.mem_of_getElem? own)))⟩
  intro b br known open_
  exact holder_set own (inv.holder b br known open_) (fun owes => owed.trans owes)

-- One breaker is called by a request; the others do not move.
theorem called_watched {hs : List Holding} {i : Nat} {h after : Holding} {br changed : Breaker} (inv : Inv s hs)
    (own : hs[i]? = some h) (lost : after.lost = h.lost) (known : (breakers s)[b]? = some br)
    (same : breakers next = (breakers s).set b changed)
    (others : ∀ c, c ≠ b → h.owed ≠ some (c,true))
    (promoted : changed.state = .halfOpen → after.owed = some (b,true) ∨ br.state = .halfOpen ∧ h.owed ≠ some (b,true)) :
    Inv next (hs.set i after) := by
  have bound := (List.getElem?_eq_some_iff.mp own).1
  unfold Inv
  rw [same]
  refine ⟨?_,present_set inv.present (lost.trans (inv.present h (List.mem_of_getElem? own)))⟩
  intro c other found open_
  by_cases here : c = b
  · subst c
    rw [List.getElem?_set_self (List.getElem?_eq_some_iff.mp known).1] at found
    cases Option.some.inj found
    rcases promoted open_ with owes | ⟨before,free⟩
    · exact ⟨i,after,List.getElem?_set_self bound,owes⟩
    · exact holder_set own (inv.holder b br known before) (fun owes => absurd owes free)
  · rw [List.getElem?_set_ne (Ne.symm here)] at found
    exact holder_set own (inv.holder c other found open_) (fun owes => absurd owes (others c here))

theorem breakers_kept {R : Type} (s : State) (b : Nat) (fallback : R) (f : Backend → R × Backend)
    (kept : ∀ backend, (f backend).2.breaker = backend.breaker) :
    breakers (onBackend s b fallback f).2 = breakers s :=
  onBackend_kept Backend.breaker s b fallback f kept

theorem allowRequest_watched {hs : List Holding} {i : Nat} {h : Holding} (inv : Inv s hs) (own : hs[i]? = some h)
    (free : h.owed = none) {dec : Decision} (decided : (exec i (.allowRequest b) s).1 = dec) :
    Inv (exec i (.allowRequest b) s).2
      (hs.set i {h with owed := if dec.allowed then some (b,dec.isProbe) else none}) := by
  cases known : s.backends[b]? with
  | none =>
    have refused : exec i (.allowRequest b) s = (({} : Decision),s) := by simp only [exec,onBackend,known]
    rw [refused] at decided ⊢
    cases decided
    exact unchanged_watched inv own free.symm rfl rfl
  | some backend =>
    have found : (breakers s)[b]? = some backend.breaker := by simp [breakers,known]
    have reply : dec = (allowRequest backend.breaker s.clock).1 := by
      rw [← decided]
      simp only [exec,onBackend,known]
    have same : breakers (exec i (.allowRequest b) s).2 = (breakers s).set b (allowRequest backend.breaker s.clock).2 := by
      simp only [exec,onBackend,known,breakers,List.map_set]
    rw [reply]
    refine called_watched inv own rfl found same (by simp [free]) ?_
    intro promoted
    rcases allow_cases backend.breaker s.clock with ⟨out,closed⟩ | ⟨out,_⟩ | ⟨out,_⟩
    · rw [out,closed] at promoted
      cases promoted
    · rw [out]
      exact .inl rfl
    · rw [out] at promoted
      exact .inr ⟨promoted,by simp [free]⟩

theorem report_watched {hs : List Holding} {i : Nat} {h : Holding} (inv : Inv s hs) (own : hs[i]? = some h)
    (owes : h.owed = some (b,isProbe)) :
    Inv (exec i (.report b report isProbe) s).2 (hs.set i {h with owed := none}) := by
  cases known : s.backends[b]? with
  | none =>
    have ignored : (exec i (.report b report isProbe) s).2 = s := by simp only [exec,onBackend,known]
    rw [ignored]
    refine ⟨?_,present_set inv.present (inv.present h (List.mem_of_getElem? own))⟩
    intro c br found open_
    refine holder_set own (inv.holder c br found open_) fun owesOther => ?_
    rw [owes] at owesOther
    cases owesOther
    simp [breakers,known] at found
  | some backend =>
    have found : (breakers s)[b]? = some backend.breaker := by simp [breakers,known]
    have same : breakers (exec i (.report b report isProbe) s).2 =
        (breakers s).set b (settleReport backend.breaker s.clock report isProbe) := by
      simp only [exec,onBackend,known,breakers,List.map_set]
    refine called_watched inv own rfl found same ?_ ?_
    · intro c other
      simp [owes,Ne.symm other]
    · intro promoted
      cases isProbe with
      | true => exact absurd promoted (probe_settles _ _ _)
      | false => exact .inr ⟨report_never_promotes promoted,by simp [owes]⟩

theorem exec_watched (s : State) (hs : List Holding) (i : Nat) (h after : Holding) (op : Op) (inv : Inv s hs)
    (own : hs[i]? = some h) (booked : ledger.book h (.did op (exec i op s).1) = some after) :
    Inv (exec i op s).2 (hs.set i after) := by
  cases op with
  | now | nextCursor | record | publishAdmissionGauges =>
    cases Option.some.inj booked
    exact unchanged_watched inv own rfl rfl rfl
  | observedHealth | load =>
    cases Option.some.inj booked
    exact unchanged_watched inv own rfl rfl (breakers_kept _ _ _ _ fun _ => rfl)
  | enterGate | resumeGate | releaseGate =>
    obtain ⟨-,rfl⟩ := entered booked
    exact unchanged_watched inv own rfl rfl rfl
  | tryAcquire | releaseSlot =>
    obtain ⟨-,rfl⟩ := entered booked
    exact unchanged_watched inv own rfl rfl (breakers_kept _ _ _ _ fun _ => rfl)
  | allowRequest b =>
    obtain ⟨⟨-,free⟩,rfl⟩ := entered booked
    exact allowRequest_watched inv own free rfl
  | report b report isProbe =>
    obtain ⟨owes,rfl⟩ := entered booked
    exact report_watched inv own owes

-- The surroundings as far as this result goes: no frame that the sink writes
-- into a started stream is lost.
def Delivered : Event Op.Reply Wait.Answer → Prop
  | .got (.writeChunk .sink _) delivered => delivered = true
  | _ => True

def watchful : Ledger Op.Reply Wait.Answer Holding := ⟨fun _ event => Delivered event,book⟩

theorem answer_watched (s : State) (hs : List Holding) (i : Nat) (h after : Holding) (point : Wait)
    (answer : point.Answer) (inv : Inv s hs) (own : hs[i]? = some h) (allowed : watchful.allows h (.got point answer))
    (booked : watchful.book h (.got point answer) = some after) : Inv s (hs.set i after) := by
  have same : after.owed = h.owed ∧ after.lost = h.lost := by
    cases point with
    | writeChunk site chunk =>
      cases site with
      | sink =>
        cases Option.some.inj booked
        have delivered : answer = true := allowed
        exact ⟨rfl,by simp [delivered]⟩
      | gateway => cases Option.some.inj booked; exact ⟨rfl,rfl⟩
    | _ => cases Option.some.inj booked; exact ⟨rfl,rfl⟩
  exact unchanged_watched inv own same.1 same.2 rfl

theorem happen_breakers (event : Happening) (s : State) : breakers (happen event s) = breakers s := by
  cases event with
  | tick nanoseconds => rfl
  | probed b found => exact breakers_kept _ _ _ _ fun _ => rfl
  | setHealthForTest b forced => exact breakers_kept _ _ _ _ fun _ => rfl

theorem arrive_watched (s : State) (hs : List Holding) (inv : Inv s hs) : Inv s (hs ++ [({} : Holding)]) := by
  constructor
  · intro b br known open_
    obtain ⟨i,h,found,owes⟩ := inv.holder b br known open_
    have bound := (List.getElem?_eq_some_iff.mp found).1
    exact ⟨i,h,by rw [List.getElem?_append_left bound]; exact found,owes⟩
  · intro h member
    rcases List.mem_append.mp member with old | new
    · exact inv.present h old
    · rw [List.mem_singleton.mp new]

theorem surround_watched (s : State) (hs : List Holding) (event : Happening) (inv : Inv s hs) : Inv (happen event s) hs := by
  unfold Inv
  rw [happen_breakers]
  exact inv

theorem accounts (env : Env) : Accounts (host env) watchful {} (fun h _ => AtRest h) Inv where
  keeps := fun req => (handleChat_keeps env req).restrict fun _ _ _ => trivial
  allows := fun _ _ _ => trivial
  arrive := arrive_watched
  exec := exec_watched
  answer := answer_watched
  surround := surround_watched

theorem construct_watched (cfg : Config) : Inv (construct cfg) [] := by
  refine ⟨?_,by simp⟩
  intro b br known open_
  simp only [breakers,construct,List.getElem?_map,Option.map_eq_some_iff] at known
  obtain ⟨_,⟨conf,_,rfl⟩,rfl⟩ := known
  cases open_

inductive BreakerCall where
  | admitted (b : Nat) (isProbe : Bool)
  | reported (b : Nat) (isProbe : Bool)
  deriving DecidableEq, Repr

def breakerCall : Event Op.Reply Wait.Answer → Option BreakerCall
  | .did (.allowRequest b) dec => if Decision.allowed dec then some (.admitted b (Decision.isProbe dec)) else none
  | .did (.report b _ isProbe) _ => some (.reported b isProbe)
  | _ => none

def breakerCalls (trace : Trace) : List BreakerCall := trace.filterMap breakerCall

-- Every admission is followed by one report of the same decision, and there are
-- no other reports.
def Paired : List BreakerCall → Prop
  | [] => True
  | .admitted b isProbe :: .reported c wasProbe :: rest => b = c ∧ isProbe = wasProbe ∧ Paired rest
  | _ => False

-- The breaker calls that lead from owing one decision to owing another.
inductive Owing : Option (Nat × Bool) → List BreakerCall → Option (Nat × Bool) → Prop where
  | none : Owing owed [] owed
  | admitted : Owing (some (b,isProbe)) calls owed → Owing none (.admitted b isProbe :: calls) owed
  | reported : Owing none calls owed → Owing (some (b,isProbe)) (.reported b isProbe :: calls) owed

theorem book_owing (booked : book h event = some after) (later : Owing after.owed calls owed) :
    Owing h.owed ((breakerCall event).toList ++ calls) owed := by
  cases event with
  | got point answer =>
    cases point with
    | writeChunk site chunk => cases site <;> (cases Option.some.inj booked; exact later)
    | _ => cases Option.some.inj booked; exact later
  | did op reply =>
    cases op with
    | allowRequest b =>
      obtain ⟨⟨-,free⟩,rfl⟩ := entered booked
      rw [free]
      cases allowed : Decision.allowed reply with
      | true =>
        rw [allowed] at later
        simpa [breakerCall,allowed] using Owing.admitted later
      | false =>
        rw [allowed] at later
        simpa [breakerCall,allowed] using later
    | report b report isProbe =>
      obtain ⟨owes,rfl⟩ := entered booked
      rw [owes]
      exact .reported later
    | enterGate | resumeGate | releaseGate | tryAcquire | releaseSlot =>
      obtain ⟨-,rfl⟩ := entered booked
      exact later
    | _ =>
      cases Option.some.inj booked
      exact later

theorem replay_owing {trace : Trace} (replayed : replay watchful h trace = some after) :
    Owing h.owed (breakerCalls trace) after.owed := by
  induction trace generalizing h with
  | nil =>
    cases Option.some.inj replayed
    exact .none
  | cons event rest ih =>
    obtain ⟨middle,booked,remaining⟩ := Option.bind_eq_some_iff.mp replayed
    have later := book_owing booked (ih remaining)
    cases call : breakerCall event <;> simpa [breakerCalls,call] using later

theorem owing_paired (owing : Owing none calls none) : Paired calls := by
  cases owing with
  | none => trivial
  | admitted later =>
    cases later with
    | reported rest => exact ⟨rfl,rfl,owing_paired rest⟩

theorem owing_last (owing : Owing none calls (some (b,isProbe))) : calls.getLast? = some (.admitted b isProbe) := by
  cases owing with
  | admitted later =>
    cases later with
    | none => rfl
    | reported rest =>
      have last := owing_last rest
      rw [List.getLast?_cons,List.getLast?_cons,last]
      rfl

-- A client that stays to the end of its stream takes every frame written to it.
def ClientStays (w : Gateways) : Action Request Happening Wait.Answer → Prop
  | .resume i answers => ∀ request trace chunk rest,
    w.threads[i]? = some ⟨request,trace,.wait (.writeChunk .sink chunk) rest⟩ → answers (.writeChunk .sink chunk) = true
  | _ => True

theorem stays_delivered (w : Gateways) (i : Nat) (answers : (point : Wait) → point.Answer) (request : Request) (trace : Trace)
    (point : Wait) (rest : point.Answer → Prog Exit) (h : Holding) (stays : ClientStays w (.resume i answers))
    (found : w.threads[i]? = some ⟨request,trace,.wait point rest⟩) (_ : replay watchful {} trace = some h) :
    watchful.allows h (.got point (answers point)) := by
  cases point with
  | writeChunk site chunk =>
    cases site with
    | sink => exact stays request trace chunk rest found
    | gateway => trivial
  | _ => trivial

theorem decisions_settled (path : Reachable env ClientStays w) :
    (∀ b backend, w.shared.backends[b]? = some backend → backend.breaker.state = .halfOpen →
      ∃ call ∈ w.threads, ¬ Finished call ∧ (breakerCalls call.trace).getLast? = some (.admitted b true)) ∧
    (∀ call ∈ w.threads, Finished call → Paired (breakerCalls call.trace)) := by
  obtain ⟨hs,agree,inv⟩ := accounts_reached (accounts env) stays_delivered (construct_watched env.cfg) path
  have settled : ∀ call, ∀ h ∈ hs, Agrees watchful {} (fun h _ => AtRest h) call h → Finished call → h.owed = none := by
    rintro call h inside agrees ⟨exit,code⟩
    rcases (agrees.ended code).2.2.2 with free | lost
    · exact free
    · rw [inv.present h inside] at lost
      cases lost
  constructor
  · intro b backend known open_
    obtain ⟨i,h,own,owes⟩ := inv.holder b backend.breaker (by simp [breakers,known]) open_
    have inside := List.mem_of_getElem? own
    obtain ⟨call,member,agrees⟩ := forall₂_right agree inside
    refine ⟨call,member,fun finished => ?_,?_⟩
    · rw [settled call h inside agrees finished] at owes
      cases owes
    · have owing := replay_owing agrees.1
      rw [owes] at owing
      exact owing_last owing
  · intro call member finished
    obtain ⟨h,inside,agrees⟩ := forall₂_left agree member
    have owing := replay_owing agrees.1
    rw [settled call h inside agrees finished] at owing
    exact owing_paired owing

theorem decisions_settled_probing : ∃ w, run (advance (host (sampleEnv ["a"]))) (opening (sampleEnv ["a"])) probing = some w ∧
    (breakers w.shared).map Breaker.state = [.halfOpen] ∧
    ∃ call ∈ w.threads, ¬ Finished call ∧ (breakerCalls call.trace).getLast? = some (.admitted 0 true) := by
  have ran : (run (advance (host (sampleEnv ["a"]))) (opening (sampleEnv ["a"])) probing).map
      (fun w => (breakers w.shared).map Breaker.state) = some [.halfOpen] := by decide +kernel
  obtain ⟨w,reached,open_⟩ := Option.map_eq_some_iff.mp ran
  refine ⟨w,reached,open_,?_⟩
  have stays : ∀ v, ∀ action ∈ probing, ClientStays v action := by
    intro v action member
    simp only [probing,List.mem_cons,List.not_mem_nil,or_false] at member
    rcases member with rfl | rfl | rfl | rfl | rfl | rfl
    · trivial
    · trivial
    · exact fun _ _ _ _ _ => rfl
    · exact fun _ _ _ _ _ => rfl
    · trivial
    · trivial
  have settled := decisions_settled (run_meets .initial stays reached)
  have first : (w.shared.backends.map fun backend => backend.breaker.state) = [.halfOpen] := by
    simpa [breakers,Function.comp_def] using open_
  cases backends : w.shared.backends with
  | nil => simp [backends] at first
  | cons backend rest =>
    rw [backends] at first
    exact settled.1 0 backend (by rw [backends]; rfl) (List.cons.inj first).1

def stranding : List (Action Request Happening Wait.Answer) :=
  probing ++ List.replicate 5 (.resume 1 (streamOf "data: x\n\n")) ++ [.resume 1 vanishing]

-- The probe's client leaves in the middle of the stream: nobody is left to report.
theorem lost_client_strands_probe : ∃ w, Reachable (sampleEnv ["a"]) Any w ∧
    (breakers w.shared).map Breaker.state = [.halfOpen] ∧ w.threads.length = 2 ∧ ∀ call ∈ w.threads, Finished call := by
  have ran : (run (advance (host (sampleEnv ["a"]))) (opening (sampleEnv ["a"])) stranding).map
      (fun w => ((breakers w.shared).map Breaker.state,w.threads.map exitOf)) =
      some ([.halfOpen],[some (.returned true),some (.returned false)]) := by decide +kernel
  obtain ⟨w,reached,found⟩ := Option.map_eq_some_iff.mp ran
  obtain ⟨open_,exits⟩ := Prod.mk.inj found
  refine ⟨w,run_reached .initial reached,open_,?_,?_⟩
  · simpa using congrArg List.length exits
  · intro call member
    have ended : exitOf call ∈ [some (.returned true),some (.returned false)] := by
      rw [← exits]
      exact List.mem_map_of_mem member
    rcases List.mem_pair.mp ended with one | two
    · exact exitOf_finished one
    · exact exitOf_finished two

end Kvmux.Settlement
