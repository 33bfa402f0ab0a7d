import Mathlib.Data.List.Basic
import Kvmux.Fleet
import Kvmux.Recording

namespace Kvmux.Gauges
open Coroutine GlobalGate Gateway Metrics Recording Fleet Transition Tally

-- The gate, where each request stands at it, and the two gauges as they were
-- last published.
structure Panel where
  gate : Gate
  phases : List Phase := []
  running : Int := 0
  waiting : Int := 0
  deriving DecidableEq, Repr

inductive Move where
  | arrive
  | enter (i : Nat)
  | resume (i : Nat)
  | release (i : Nat)
  deriving DecidableEq, Repr

def publish (p : Panel) : Panel := {p with running := p.gate.inFlight,waiting := p.gate.waiters.length}

-- A request publishes when it has been admitted, at once or after a wait, and
-- at no other time.
def step (p : Panel) : Move → Option Panel
  | .arrive => some {p with phases := p.phases ++ [.idle]}
  | .enter i =>
    if p.phases[i]? = some .idle then
      let out := acquireEntry p.gate i
      let next := {p with gate := out.2,phases := p.phases.set i out.1.phase}
      some (if out.1 = .admitted then publish next else next)
    else none
  | .resume i =>
    if p.phases[i]? = some .waiting then
      let out := acquireResume p.gate i
      let next := {p with gate := out.2,phases := p.phases.set i out.1.phase}
      some (if out.1 = .admitted then publish next else next)
    else none
  | .release i =>
    if p.phases[i]? = some .holding then some {p with gate := release p.gate,phases := p.phases.set i .gone} else none

def blank (cfg : Config) : Panel := {gate := start cfg.server.maxConcurrentStreams.1 cfg.server.queueDepth.1}

def Truthful (p : Panel) : Prop := p.running = p.gate.inFlight ∧ p.waiting = p.gate.waiters.length

-- No request has to queue, none runs out of time in the queue, and none gives
-- its slot back.
def Steady (p : Panel) : Move → Prop
  | .arrive => True
  | .enter _ => (p.gate.inFlight < p.gate.maxConcurrent ∧ p.gate.waiters = []) ∨ (p.gate.waiters.length : Int) ≥ p.gate.queueDepth
  | .resume i => i ∈ p.gate.granted
  | .release _ => False

theorem publish_truthful (p : Panel) : Truthful (publish p) := ⟨rfl,rfl⟩

theorem step_cases (ran : step p move = some next) :
    (move = .arrive ∧ next = {p with phases := p.phases ++ [.idle]}) ∨
    (∃ i, move = .enter i ∧ p.phases[i]? = some .idle ∧
      let moved := {p with gate := (acquireEntry p.gate i).2,phases := p.phases.set i (acquireEntry p.gate i).1.phase}
      next = if (acquireEntry p.gate i).1 = .admitted then publish moved else moved) ∨
    (∃ i, move = .resume i ∧ p.phases[i]? = some .waiting ∧
      let moved := {p with gate := (acquireResume p.gate i).2,phases := p.phases.set i (acquireResume p.gate i).1.phase}
      next = if (acquireResume p.gate i).1 = .admitted then publish moved else moved) ∨
    (∃ i, move = .release i ∧ p.phases[i]? = some .holding ∧
      next = {p with gate := release p.gate,phases := p.phases.set i .gone}) := by
  cases move with
  | arrive => exact .inl ⟨rfl,(Option.some.inj ran).symm⟩
  | enter i =>
    obtain ⟨idle,same⟩ := Option.ite_none_right_eq_some.mp ran
    exact .inr (.inl ⟨i,rfl,idle,(Option.some.inj same).symm⟩)
  | resume i =>
    obtain ⟨waits,same⟩ := Option.ite_none_right_eq_some.mp ran
    exact .inr (.inr (.inl ⟨i,rfl,waits,(Option.some.inj same).symm⟩))
  | release i =>
    obtain ⟨holds,same⟩ := Option.ite_none_right_eq_some.mp ran
    exact .inr (.inr (.inr ⟨i,rfl,holds,(Option.some.inj same).symm⟩))

theorem step_valid (valid : GateInv p.gate p.phases) (ran : step p move = some next) : GateInv next.gate next.phases := by
  obtain ⟨-,rfl⟩ | ⟨i,-,idle,rfl⟩ | ⟨i,-,waits,rfl⟩ | ⟨i,-,holds,rfl⟩ := step_cases ran
  · exact arrive_inv valid
  · have entered := entry_inv valid idle
    split <;> exact entered
  · have resumed := resume_inv valid waits
    split <;> exact resumed
  · exact release_inv valid holds

theorem reached_valid {meets : Panel → Move → Prop} (path : Reached step meets (blank cfg) p) : GateInv p.gate p.phases := by
  refine reached_invariant (fun p => GateInv p.gate p.phases) ?_ (fun _ _ _ valid _ ran => step_valid valid ran) path
  have slots := cfg.server.maxConcurrentStreams.2
  have depth := cfg.server.queueDepth.2
  exact start_inv (by omega) depth.1

section Worlds

-- Where one request stands at the gate, and whether it has still to publish.
structure Turn where
  phase : Phase := .idle
  owing : Bool := false
  deriving DecidableEq, Repr

-- A request that was admitted publishes before it can be interrupted.
def turn (l : Turn) : Event Op.Reply Wait.Answer → Option Turn
  | .did .enterGate entry =>
    if l.phase = .idle ∧ l.owing = false then some ⟨Entry.phase entry,decide (entry = Entry.admitted)⟩ else none
  | .did .resumeGate status =>
    if l.phase = .waiting ∧ l.owing = false then some ⟨AdmitStatus.phase status,decide (status = AdmitStatus.admitted)⟩ else none
  | .did .publishAdmissionGauges _ => if l.owing = true then some {l with owing := false} else none
  | .did .releaseGate _ => if l.phase = .holding ∧ l.owing = false then some {l with phase := .gone} else none
  | .did _ _ => some l
  | .got _ _ => if l.owing = false then some l else none

def turns : Ledger Op.Reply Wait.Answer Turn := ⟨fun _ _ => True,turn⟩

-- The gauges in the registry are those of a panel that has seen the same; while
-- a request has still to publish, the panel is ahead of the registry.
def Shown (cfg : Config) (s : State) (phases : List Phase) (owing : Bool) : Prop :=
  ∃ p, Reached step Any (blank cfg) p ∧ p.gate = s.gate ∧ p.phases = phases ∧
    if owing then Truthful p else p.running = s.registry.requestsRunning ∧ p.waiting = s.registry.requestsWaiting

theorem gateless_turns {p : Prog α} (records : Records (gateless env) p post) (settled : l.owing = false) :
    Keeps turns l p fun after _ => after = l := by
  induction p with
  | ret value => rfl
  | act op next ih =>
    intro reply _
    obtain ⟨_,booked,later⟩ := records reply trivial
    have fits := permits_booked booked
    refine ⟨l,?_,ih reply later⟩
    cases op <;> first | rfl | cases fits
  | wait point next ih =>
    intro answer _
    obtain ⟨_,-,later⟩ := records answer trivial
    exact ⟨l,if_pos settled,ih answer later⟩

theorem acquire_turns : Keeps turns {} acquire fun after out =>
    after = if out.1 = .admitted then ⟨.holding,true⟩ else ⟨.gone,false⟩ := by
  intro entry _
  cases entry with
  | admitted => exact ⟨⟨.holding,true⟩,rfl,rfl⟩
  | queueFull => exact ⟨⟨.gone,false⟩,rfl,rfl⟩
  | queued =>
    refine ⟨⟨.waiting,false⟩,rfl,fun start _ => ⟨_,rfl,fun _ _ => ⟨_,rfl,fun stop _ => ⟨_,rfl,fun status _ => ?_⟩⟩⟩⟩
    cases status with
    | admitted => exact ⟨⟨.holding,true⟩,rfl,rfl⟩
    | queueFull => exact ⟨⟨.gone,false⟩,rfl,rfl⟩
    | queueTimeout => exact ⟨⟨.gone,false⟩,rfl,rfl⟩

theorem serve_turns (fits : configured env labels = true) (creq : OpenAi.ChatCompletionRequest) (keepAlive : Bool) :
    Keeps turns {} (serve env creq keepAlive labels) fun after _ => after.owing = false := by
  unfold serve
  refine acquire_turns.bind ?_
  rintro l ⟨status,queuedFor⟩ rfl
  refine .act (fun _ => rfl) fun _ _ => ?_
  cases status with
  | admitted =>
    obtain ⟨rest,same,records⟩ := admitted_records fits creq keepAlive
    dsimp only
    rw [same]
    refine .act (fun _ => rfl) fun tAdmitted _ => .act (fun _ => rfl) fun _ _ => ?_
    refine (gateless_turns (records tAdmitted) rfl).bind ?_
    rintro l outcome rfl
    exact .act (fun _ => rfl) fun _ _ => rfl
  | queueFull => exact (gateless_turns (refused_records fits keepAlive _ _) rfl).mono fun l _ same => by rw [same]; rfl
  | queueTimeout => exact (gateless_turns (refused_records fits keepAlive _ _) rfl).mono fun l _ same => by rw [same]; rfl

theorem chatBody_turns (env : Env) (req : Request) :
    Keeps turns {} (chatBody env req {route := text "chat_completions"}) fun after _ => after.owing = false := by
  have plain (labels : Labels) (status : Nat) (body : Option Bytes) :
      Keeps turns {} (respond labels req.keepAlive status body) fun after _ => after.owing = false := by
    have records : Records (gateless env) (respond labels req.keepAlive status body) _ := respond_records labels _ _ _
    exact (gateless_turns records rfl).mono fun l _ same => by rw [same]
  unfold chatBody
  split
  · exact plain _ _ _
  · split
    · split
      · rfl
      · exact plain _ _ _
    · dsimp only
      split
      · exact plain _ _ _
      · rename_i serving
        exact serve_turns (configured_model serving) _ req.keepAlive

theorem handleChat_turns (env : Env) (req : Request) :
    Keeps turns {} (handleChat env req) fun after _ => after.owing = false := by
  unfold handleChat
  refine .act (fun _ => rfl) fun tArrive _ => (chatBody_turns env req).bind fun l outcome settled => ?_
  unfold recordTerminal
  split
  · exact .act (fun _ => rfl) fun _ _ => .act (fun _ => rfl) fun tEnd _ => .act (fun _ => rfl) fun _ _ => settled
  · exact settled

theorem admission_shown (s : State) {next : Panel} {admitted : Prop} [Decidable admitted]
    (path : Reached step Any (blank cfg) (if admitted then publish next else next)) (gate : next.gate = s.gate)
    (gauges : next.running = s.registry.requestsRunning ∧ next.waiting = s.registry.requestsWaiting) :
    Shown cfg s next.phases (decide admitted) := by
  by_cases taken : admitted
  · rw [if_pos taken] at path
    refine ⟨publish next,path,gate,rfl,?_⟩
    rw [if_pos (decide_eq_true taken)]
    exact publish_truthful next
  · rw [if_neg taken] at path
    refine ⟨next,path,gate,rfl,?_⟩
    rw [if_neg (by simpa using taken)]
    exact gauges

-- An operation that touches neither the gate nor the gauges.
theorem same_shown {after : State} (shown : Shown cfg s phases owing) (gate : after.gate = s.gate)
    (running : after.registry.requestsRunning = s.registry.requestsRunning)
    (waiting : after.registry.requestsWaiting = s.registry.requestsWaiting) : Shown cfg after phases owing := by
  obtain ⟨p,path,own,rfl,gauges⟩ := shown
  refine ⟨p,path,own.trans gate.symm,rfl,?_⟩
  cases owing with
  | true => exact gauges
  | false => exact ⟨gauges.1.trans running.symm,gauges.2.trans waiting.symm⟩

theorem exec_shown (own : phases[i]? = some l.phase) (shown : Shown cfg s phases l.owing)
    (booked : turn l (.did op (exec i op s).1) = some after) :
    Shown cfg (exec i op s).2 (phases.set i after.phase) after.owing := by
  have onto {R : Type} (b : Nat) (fallback : R) (f : Backend → R × Backend) :
      Shown cfg (onBackend s b fallback f).2 (phases.set i l.phase) l.owing := by
    rw [set_own own]
    exact same_shown shown (onBackend_gate s b fallback f) (by rw [onBackend_registry]) (by rw [onBackend_registry])
  cases op with
  | enterGate =>
    simp only [turn] at booked
    split at booked
    · rename_i fresh
      cases Option.some.inj booked
      rw [fresh.1] at own
      rw [fresh.2] at shown
      obtain ⟨p,path,gate,rfl,gauges⟩ := shown
      change Shown cfg {s with gate := (acquireEntry s.gate i).2} (p.phases.set i (acquireEntry s.gate i).1.phase)
        (decide ((acquireEntry s.gate i).1 = .admitted))
      rw [← gate]
      exact admission_shown {s with gate := _} (path.take (.enter i) trivial (if_pos own)) rfl gauges
    · cases booked
  | resumeGate =>
    simp only [turn] at booked
    split at booked
    · rename_i waits
      cases Option.some.inj booked
      rw [waits.1] at own
      rw [waits.2] at shown
      obtain ⟨p,path,gate,rfl,gauges⟩ := shown
      change Shown cfg {s with gate := (acquireResume s.gate i).2} (p.phases.set i (acquireResume s.gate i).1.phase)
        (decide ((acquireResume s.gate i).1 = .admitted))
      rw [← gate]
      exact admission_shown {s with gate := _} (path.take (.resume i) trivial (if_pos own)) rfl gauges
    · cases booked
  | releaseGate =>
    simp only [turn] at booked
    split at booked
    · rename_i holds
      cases Option.some.inj booked
      rw [holds.1] at own
      rw [holds.2] at shown ⊢
      obtain ⟨p,path,gate,rfl,gauges⟩ := shown
      exact ⟨_,path.take (.release i) trivial (if_pos own),congrArg release gate,rfl,gauges⟩
    · cases booked
  | publishAdmissionGauges =>
    simp only [turn] at booked
    split at booked
    · rename_i owes
      cases Option.some.inj booked
      rw [owes] at shown
      obtain ⟨p,path,gate,rfl,truthful⟩ := shown
      refine ⟨p,path,gate,(set_own own).symm,?_⟩
      change p.running = s.gate.inFlight ∧ p.waiting = (s.gate.waiters.length : Int)
      rw [← gate]
      exact truthful
    · cases booked
  | record metric =>
    cases Option.some.inj booked
    rw [set_own own]
    exact same_shown shown rfl (by cases metric <;> rfl) (by cases metric <;> rfl)
  | now | nextCursor =>
    cases Option.some.inj booked
    rw [set_own own]
    exact same_shown shown rfl rfl rfl
  | observedHealth b | load b | allowRequest b | report b | tryAcquire b | releaseSlot b =>
    cases Option.some.inj booked
    exact onto b _ _

theorem settle_shown {p : Prog Exit} (own : phases[i]? = some l.phase) (shown : Shown env.cfg s phases l.owing)
    (kept : Keeps turns l p fun after _ => after.owing = false) :
    ∃ after, after.owing = false ∧ Keeps turns after (settle (host env) i s p).2.2 (fun after _ => after.owing = false) ∧
      Shown env.cfg (settle (host env) i s p).1 (phases.set i after.phase) false := by
  induction p generalizing s phases l with
  | ret value =>
    refine ⟨l,kept,kept,?_⟩
    rw [set_own own,← show l.owing = false from kept]
    exact shown
  | wait point next _ =>
    obtain ⟨after,booked,-⟩ := kept (refusing point) trivial
    have settled : l.owing = false := by
      by_contra owes
      simp [turns,turn,owes] at booked
    refine ⟨l,settled,kept,?_⟩
    rw [set_own own,← settled]
    exact shown
  | act op next ih =>
    obtain ⟨middle,booked,later⟩ := kept (exec i op s).1 trivial
    have bound := (List.getElem?_eq_some_iff.mp own).1
    obtain ⟨after,settled,remains,ends⟩ := ih _ (List.getElem?_set_self bound) (exec_shown own shown booked) later
    rw [List.set_set] at ends
    exact ⟨after,settled,remains,ends⟩

theorem happen_shown (shown : Shown cfg s phases false) (event : Happening) : Shown cfg (happen event s) phases false := by
  cases event with
  | tick nanoseconds => exact same_shown shown rfl rfl rfl
  | probed b found | setHealthForTest b found =>
    exact same_shown shown (onBackend_gate s b _ _) (by rw [happen,onBackend_registry]) (by rw [happen,onBackend_registry])

theorem arrive_shown (shown : Shown cfg s phases false) : Shown cfg s (phases ++ [.idle]) false := by
  obtain ⟨p,path,gate,rfl,gauges⟩ := shown
  exact ⟨_,path.take .arrive trivial rfl,gate,rfl,gauges⟩

-- Every call of a world still publishes in time.
def Prompt (call : Call) (phase : Phase) : Prop := Keeps turns ⟨phase,false⟩ call.code fun after _ => after.owing = false

theorem reached_shown {meets : Gateways → Action Request Happening Wait.Answer → Prop} (path : Reachable env meets w) :
    ∃ phases, List.Forall₂ Prompt w.threads phases ∧ Shown env.cfg w.shared phases false := by
  induction path with
  | initial => exact ⟨[],.nil,blank env.cfg,.initial,rfl,rfl,rfl,rfl⟩
  | step _ _ ran ih =>
    obtain ⟨phases,prompt,shown⟩ := ih
    obtain ⟨request,-,rfl⟩ | ⟨i,answers,request,trace,point,rest,-,found,rfl⟩ | ⟨event,-,rfl⟩ := advance_cases (host env) ran
    · have own : (phases ++ [Phase.idle])[phases.length]? = some .idle := by simp
      obtain ⟨⟨phase,_⟩,rfl,remains,ends⟩ := settle_shown (l := {}) own (arrive_shown shown) (handleChat_turns env request)
      have placed : (phases ++ [Phase.idle]).set phases.length phase = phases ++ [phase] := by simp
      rw [placed] at ends
      rw [← prompt.length_eq] at ends remains
      exact ⟨phases ++ [phase],List.rel_append prompt (.cons remains .nil),ends⟩
    · obtain ⟨bound,same⟩ := List.getElem?_eq_some_iff.mp found
      have inside : i < phases.length := prompt.length_eq ▸ bound
      have own : phases[i]? = some phases[i] := List.getElem?_eq_getElem inside
      have kept : Prompt ⟨request,trace,.wait point rest⟩ phases[i] := same ▸ prompt.get bound inside
      obtain ⟨_,booked,later⟩ := kept (answers point) trivial
      cases Option.some.inj booked
      obtain ⟨⟨phase,_⟩,rfl,remains,ends⟩ := settle_shown own shown later
      refine ⟨phases.set i phase,forall₂_set prompt ?_ i,ends⟩
      exact remains
    · exact ⟨phases,prompt,happen_shown shown event⟩

end Worlds

def single : List (Action Request Happening Wait.Answer) :=
  [.surround (.probed 0 .healthy),.spawn (chatRequest false)] ++ List.replicate 4 (.resume 0 (obliging ⟨200,true,[]⟩ ⟨200,[]⟩))

end Kvmux.Gauges
