import Mathlib.Data.List.Basic
import Kvmux.Capacity
import Kvmux.Server

namespace Kvmux.Drain
open Coroutine Gateway Fleet Routes Checker Server Tally Transition

section Counting
variable {setup : Setup} {p q : Process} {action : Step} {meets : Process → Step → Prop}

def running (call : Call) : Bool := (exitOf call).isNone

def chatting (session : Session) : Bool :=
  match session.phase with
  | .chatting _ => true
  | _ => false

-- The counter of the gateway is the number of chat handlers that have not ended,
-- and that of the sessions that wait for one.
structure Counted (p : Process) : Prop where
  calls : p.inFlight = tally (fun _ => running) p.gateways.threads
  sessions : p.inFlight = tally (fun _ => chatting) p.sessions

theorem put_unchanged {old new : Session} (found : p.sessions[j]? = some old) (before : chatting old = false)
    (after : chatting new = false) : tally (fun _ => chatting) (p.sessions.set j new) = tally (fun _ => chatting) p.sessions := by
  have counted := tally_set (fun _ => chatting) found new
  rw [before,after] at counted
  exact Nat.add_right_cancel counted

theorem again_unoccupied (port : Port) (keepAlive : Bool) (trace : List Seen) : chatting ⟨port,again keepAlive,trace⟩ = false := by
  cases keepAlive <;> rfl

-- The counters when a session has entered the chat handler or gone on with it,
-- while others are in progress.
theorem settleChat_counted (others : Nat) {session : Session} (known : p.gateways.threads[call]? = some thread)
    (entered : p.inFlight = others + 1) (total : tally (fun _ => running) p.gateways.threads = others + (running thread).toNat)
    (seats : ∀ new, tally (fun _ => chatting) (p.sessions.set j new) = others + (chatting new).toNat) :
    Counted (settleChat p j session call) := by
  have waiting : p.gateways.threads[call]?.bind exitOf = exitOf thread := by rw [known]; rfl
  obtain ⟨unended,went⟩ | ⟨exit,ended,went⟩ := settleChat_cases p j session call
  · rw [waiting] at unended
    rw [running,unended] at total
    rw [went]
    refine ⟨?_,?_⟩
    · change p.inFlight = _
      rw [entered,Process.put,total]
      rfl
    · change p.inFlight = _
      rw [entered,Process.put,seats]
      rfl
  · rw [waiting] at ended
    rw [running,ended] at total
    rw [went]
    refine ⟨?_,?_⟩
    · change p.inFlight - 1 = _
      rw [entered,Process.put,total]
      simp
    · change p.inFlight - 1 = _
      rw [entered,Process.put,seats,left,again_unoccupied]
      simp

-- A resumed handler was waiting, so it is counted before the step.
theorem resume_cases {w next : Gateways} (advanced : advance (host env) w (.resume call answers) = some next) :
    ∃ old new, w.threads[call]? = some old ∧ exitOf old = none ∧ old.request = new.request ∧
      next.threads = w.threads.set call new ∧ next.threads[call]? = some new := by
  obtain ⟨request,spawns,-⟩ | ⟨j,_,request,trace,point,rest,resumes,waits,rfl⟩ | ⟨event,surrounds,-⟩ :=
    advance_cases (host env) advanced
  · cases spawns
  · cases resumes
    refine ⟨_,_,waits,rfl,?_,rfl,List.getElem?_set_self (List.getElem?_eq_some_iff.mp waits).1⟩
    rfl
  · cases surrounds

theorem moved_counted (counted : Counted p) (moved : Moved setup p action q) : Counted q := by
  obtain ⟨calls,sessions⟩ := counted
  cases moved with
  | accepted =>
    refine ⟨calls,?_⟩
    change p.inFlight = _
    rw [tally_append,sessions]
    rfl
  | lost found | scraped found | threw found | replied found =>
    exact ⟨calls,by rw [Process.put,put_unchanged found rfl rfl]; exact sessions⟩
  | wrote found => exact ⟨calls,by rw [Process.put,put_unchanged found rfl (again_unoccupied _ _ _)]; exact sessions⟩
  | chatted request found =>
    apply settleChat_counted (tally (fun _ => running) p.gateways.threads)
    · exact List.getElem?_concat_length
    · exact congrArg (· + 1) calls
    · exact tally_append _ _ _
    · intro new
      have counted := tally_set (fun _ => chatting) found new
      change _ + 0 = _ at counted
      change tally _ (p.sessions.set _ new) = _
      omega
  | resumed gateways found advanced =>
    obtain ⟨old,new,waits,unended,-,threads,known⟩ := resume_cases advanced
    have counted := tally_set (fun _ => running) waits new
    have seats := tally_set (fun _ => chatting) found
    have occupied : 1 ≤ tally (fun _ => chatting) p.sessions := by
      have freed := seats ⟨.gateway,.closed,[]⟩
      change _ + 1 = _ + 0 at freed
      omega
    rw [← threads,running,unended] at counted
    change _ + 1 = _ at counted
    apply settleChat_counted (tally (fun _ => running) p.gateways.threads - 1) known
    · change p.inFlight = _
      omega
    · change tally _ gateways.threads = _
      omega
    · intro session
      have one := seats session
      change _ + 1 = _ at one
      change tally _ (p.sessions.set _ session) = _
      omega
  | probing | probed | woke | ticked => exact ⟨calls,sessions⟩
  | signalled | polled => exact ⟨by rw [poll_inFlight,poll_gateways]; exact calls,by rw [poll_inFlight,poll_sessions]; exact sessions⟩

theorem reached_counted (start : Counted p) (path : Reached (step setup) meets p q) : Counted q :=
  reached_invariant Counted start (fun _ _ _ counted _ ran => moved_counted counted (step_moved ran).2) path

theorem launch_counted (setup : Setup) : Counted (launch setup) := ⟨rfl,rfl⟩

theorem tally_none {X : Type} {test : X → Bool} {xs : List X} (none : tally (fun _ => test) xs = 0) :
    ∀ x ∈ xs, test x = false := by
  rw [tally_countP,List.countP_eq_zero] at none
  exact fun x member => Bool.eq_false_of_not_eq_true (none x member)

theorem Counted.ended (counted : Counted p) (none : p.inFlight = 0) : ∀ call ∈ p.gateways.threads, Finished call := by
  have idle : tally (fun _ => running) p.gateways.threads = 0 := by
    have calls := counted.calls
    omega
  intro call member
  have still := tally_none idle call member
  cases ended : exitOf call with
  | none => simp [running,ended] at still
  | some exit => exact exitOf_finished ended

-- In every reachable state the counter of the gateway tells how many chat
-- requests have begun and not ended, each with a session that waits for it.
theorem in_flight_exact (path : Reachable setup meets p) :
    p.inFlight = p.gateways.threads.countP running ∧ p.inFlight = p.sessions.countP chatting := by
  have counted := reached_counted (launch_counted setup) path
  rw [← tally_countP,← tally_countP]
  exact ⟨counted.calls,counted.sessions⟩

theorem in_flight_exact_busy : ∃ p, Reachable sampleSetup Any p ∧ p.gateways.threads.countP running = 1 ∧
    p.sessions.countP chatting = 1 := by
  obtain ⟨p,path,one⟩ := busy_reached
  obtain ⟨calls,sessions⟩ := in_flight_exact path
  exact ⟨p,path,by omega,by omega⟩

end Counting
section Coverage
open Coroutine.Ledger GlobalGate Holdings Capacity
variable {setup : Setup} {p : Process} {meets : Process → Step → Prop}

-- A place in the gate: a slot, or one in its queue.
def placed : GlobalGate.Phase → Bool
  | .waiting | .holding => true
  | .idle | .gone => false

def queued (g : Gate) (i : Nat) : GlobalGate.Phase → Bool
  | .waiting => !decide (i ∈ g.granted)
  | .idle | .holding | .gone => false

theorem placed_within (valid : GateInv g phases) : g.inFlight + g.waiters.length ≤ tally (fun _ => placed) phases := by
  have waiters : g.waiters.length ≤ tally (queued g) phases := by
    apply tally_members _ valid.nodup
    intro i member
    obtain ⟨waits,ungranted⟩ := (valid.queue i).mp member
    exact ⟨_,waits,by simp [queued,ungranted]⟩
  have both : tally (holdsSlot g) phases + tally (queued g) phases ≤ tally (fun _ => placed) phases := by
    apply tally_apart
    intro i phase _
    cases phase with
    | waiting => by_cases granted : i ∈ g.granted <;> simp [holdsSlot,queued,placed,granted]
    | idle | gone | holding => simp [holdsSlot,queued,placed]
  have slots := valid.slots
  omega

-- A request that has a place has not ended.
theorem placed_running (agree : List.Forall₂ (Agrees ledger {} fun h _ => AtRest h) calls hs) :
    tally (fun _ => placed) (hs.map Holding.phase) ≤ tally (fun _ => running) calls := by
  rw [tally_countP,tally_countP,List.countP_map]
  induction agree with
  | nil => exact Nat.le_refl _
  | @cons call h calls hs agrees _ ih =>
    have own (here : placed h.phase = true) : running call = true := by
      cases ended : exitOf call with
      | none => rw [running,ended]; rfl
      | some exit =>
        obtain ⟨exit,code⟩ := exitOf_finished ended
        obtain ⟨unqueued,unheld,-⟩ := agrees.ended code
        cases phase : h.phase <;> simp_all [placed]
    simp only [List.countP_cons,Function.comp_apply]
    split
    · rw [if_pos (own ‹_›)]
      omega
    · omega

-- The in-flight counter covers the gate and its queue, and the gate covers the
-- limiters: a drain that ends with a counter of zero leaves nothing taken, and a
-- request waits only behind as many others as the gate admits, none of them waiting.
theorem in_flight_covers (path : Reachable setup meets p) :
    (p.gateways.shared.backends.map fun backend => backend.limiter.active).sum ≤ p.gateways.shared.gate.inFlight ∧
    p.gateways.shared.gate.inFlight + p.gateways.shared.gate.waiters.length ≤ p.inFlight ∧
    (p.gateways.shared.gate.waiters ≠ [] →
      setup.env.cfg.server.maxConcurrentStreams.1 + p.gateways.shared.gate.waiters.length ≤ p.inFlight) ∧
    (p.inFlight = 0 → p.gateways.shared.gate.inFlight = 0 ∧ p.gateways.shared.gate.waiters = [] ∧
      ∀ backend ∈ p.gateways.shared.backends, backend.limiter.active = 0) := by
  have counted := reached_counted (launch_counted setup) path
  obtain ⟨hs,agree,inv⟩ := accounts_reached (accounts setup.env) (fun _ _ _ _ _ _ _ _ _ _ _ => trivial)
    (construct_accounted setup.env.cfg) (reachable_gateways path)
  have covered : p.gateways.shared.gate.inFlight + p.gateways.shared.gate.waiters.length ≤ p.inFlight := by
    have places := placed_within inv.gate
    have ends := placed_running agree
    rw [counted.calls]
    omega
  have ceilings : Ceilings setup.env.cfg p.gateways.shared := reached_shared (host setup.env) exec_ceilings happen_ceilings
    ⟨rfl,by simp [limiters,construct,openBackend,Function.comp_def]⟩ (reachable_gateways path)
  refine ⟨by simpa [limiters,Function.comp_def] using active_sum inv,covered,fun waiting => ?_,fun none => ?_⟩
  · rw [← ceilings.1,← inv.gate.full waiting]
    exact covered
  obtain ⟨free,idle⟩ := idle_accounted inv fun h member => by
    obtain ⟨call,inside,agrees⟩ := forall₂_right agree member
    obtain ⟨exit,code⟩ := counted.ended none call inside
    exact agrees.ended code
  exact ⟨idle,List.eq_nil_of_length_eq_zero (by omega),free⟩

theorem in_flight_covers_busy : ∃ p, Reachable sampleSetup Any p ∧ p.inFlight = 1 ∧
    p.gateways.shared.gate.inFlight + p.gateways.shared.gate.waiters.length ≤ 1 := by
  obtain ⟨p,path,one⟩ := busy_reached
  have covered := (in_flight_covers path).2.1
  exact ⟨p,path,one,by omega⟩

end Coverage
section Timing
variable {setup : Setup} {p q r : Process} {action : Step} {meets : Process → Step → Prop}

-- The event loop runs the drainer's timer when it is due.
def Prompt (p : Process) : Step → Prop
  | .tick nanoseconds => ∀ d, p.drainer = some d → p.clock + nanoseconds ≤ d.next
  | _ => True

structure Timed (deadline : Int) (p : Process) : Prop where
  draining : p.draining = true
  due : ∃ d, p.drainer = some d ∧ d.deadline = deadline ∧ p.clock ≤ d.next ∧ d.next ≤ deadline + tenthOfSecond
  reason : p.stopped = true → p.inFlight = 0 ∨ deadline ≤ p.clock

theorem poll_timed {d : Drainer} (going : p.stopped = false) (draining : p.draining = true) (now : d.next = p.clock)
    (early : d.next ≤ d.deadline + tenthOfSecond) : Timed d.deadline (poll p d) := by
  obtain ⟨reason,stops⟩ | ⟨-,before,waits⟩ := poll_cases p d
  · rw [stops]
    exact ⟨draining,⟨d,rfl,rfl,Int.le_of_eq now.symm,early⟩,fun _ => reason⟩
  · rw [waits]
    have later : p.clock ≤ p.clock + tenthOfSecond := by simp [tenthOfSecond]
    have bound : p.clock + tenthOfSecond ≤ d.deadline + tenthOfSecond := by omega
    refine ⟨draining,⟨_,rfl,rfl,later,bound⟩,fun stopped => ?_⟩
    rw [going] at stopped
    cases stopped

-- Steps that are neither the signal nor the timer leave the drain alone.
theorem moved_drain (moved : Moved setup p action q) :
    (q.drainer = p.drainer ∧ q.stopped = p.stopped ∧ q.draining = p.draining) ∨
    (action = .signal ∧ p.drainer = none ∧ q = poll {p with draining := true,monitors := p.monitors.map HealthMonitor.stop}
      ⟨p.clock + thirtySeconds,p.clock⟩) ∨
    (action = .poll ∧ ∃ d, p.drainer = some d ∧ d.next ≤ p.clock ∧ q = poll p d) := by
  cases moved with
  | signalled undrained => exact .inr (.inl ⟨rfl,undrained,rfl⟩)
  | polled drains due => exact .inr (.inr ⟨rfl,_,drains,due,rfl⟩)
  | chatted | resumed => exact .inl ⟨by rw [settleChat_drainer],by rw [settleChat_stopped],by rw [settleChat_draining]⟩
  | _ => exact .inl ⟨rfl,rfl,rfl⟩

theorem signal_timed (ran : step setup p .signal = some q) : Timed (p.clock + thirtySeconds) q := by
  obtain ⟨going,moved⟩ := step_moved ran
  cases moved with
  | signalled undrained =>
    have early : p.clock ≤ p.clock + thirtySeconds + tenthOfSecond := by
      simp only [thirtySeconds,tenthOfSecond]
      omega
    exact poll_timed (d := ⟨p.clock + thirtySeconds,p.clock⟩) going rfl rfl early

theorem moved_timed (timed : Timed deadline p) (going : p.stopped = false) (prompt : Prompt p action)
    (moved : Moved setup p action q) : Timed deadline q := by
  obtain ⟨draining,⟨d,drains,rfl,before,bound⟩,reason⟩ := timed
  obtain ⟨drainer,stopped,same⟩ | ⟨-,undrained,-⟩ | ⟨-,other,known,due,rfl⟩ := moved_drain moved
  · have waits : q.clock ≤ d.next := by
      obtain still | ⟨nanoseconds,rfl,rfl⟩ := moved_clock moved
      · rw [still]
        exact before
      · exact prompt d drains
    refine ⟨same.trans draining,⟨d,drainer.trans drains,rfl,waits,bound⟩,fun ends => ?_⟩
    rw [stopped,going] at ends
    cases ends
  · rw [drains] at undrained
    cases undrained
  · rw [drains] at known
    cases Option.some.inj known
    exact poll_timed going draining (Int.le_antisymm due before) bound

theorem reached_timed (start : Timed deadline q) (path : Reached (step setup) Prompt q r) : Timed deadline r :=
  reached_invariant (Timed deadline) start (fun _ _ _ timed prompt ran =>
    moved_timed timed (step_moved ran).1 prompt (step_moved ran).2) path

-- Letting the timer run out and polling: the process stops, or the next poll is
-- a tenth of a second later.
theorem timer_fires (setup : Setup) (timed : Timed deadline p) (going : p.stopped = false) (drains : p.drainer = some d) :
    ∃ q, Reached (step setup) Prompt p q ∧ Timed deadline q ∧
      (q.stopped = true ∨ (q.stopped = false ∧ d.next < deadline ∧ q.drainer = some {d with next := d.next + tenthOfSecond})) := by
  obtain ⟨known,found,within,before,-⟩ := timed.due
  cases Option.some.inj (drains.symm.trans found)
  let rung := p.happening (.tick (d.next - p.clock).toNat)
  have now : rung.clock = d.next := by
    change p.clock + (d.next - p.clock).toNat = d.next
    omega
  have ticks : step setup p (.tick (d.next - p.clock).toNat) = some rung := by simp [step,going,rung]
  have polls : step setup rung .poll = some (poll rung d) := by
    have due : d.next ≤ rung.clock := Int.le_of_eq now.symm
    have running : rung.stopped = false := going
    have known : rung.drainer = some d := drains
    simp [step,running,known,due]
  have patient : Prompt p (.tick (d.next - p.clock).toNat) := by
    intro other same
    rw [drains] at same
    cases Option.some.inj same
    omega
  have fires : Reached (step setup) Prompt p (poll rung d) := (Reached.initial.take _ patient ticks).take .poll trivial polls
  refine ⟨poll rung d,fires,reached_timed timed fires,?_⟩
  obtain ⟨-,stops⟩ | ⟨-,early,waits⟩ := poll_cases rung d
  · exact .inl (by rw [stops])
  · rw [now] at early waits
    rw [within] at early
    exact .inr ⟨by rw [waits]; exact going,early,by rw [waits]⟩

-- The timer alone brings the drain to its end, by induction on the polls that
-- are left before the deadline.
theorem timed_stops (setup : Setup) (polls : Nat) (timed : Timed deadline p) (drains : p.drainer = some d)
    (left_ : deadline ≤ d.next + polls * tenthOfSecond) : ∃ q, Reached (step setup) Prompt p q ∧ q.stopped = true := by
  induction polls generalizing p d with
  | zero =>
    cases going : p.stopped with
    | true => exact ⟨p,.initial,going⟩
    | false =>
      obtain ⟨q,fires,-,stops | ⟨-,early,-⟩⟩ := timer_fires setup timed going drains
      · exact ⟨q,fires,stops⟩
      · omega
  | succ polls ih =>
    cases going : p.stopped with
    | true => exact ⟨p,.initial,going⟩
    | false =>
      obtain ⟨q,fires,later,stops | ⟨-,-,waits⟩⟩ := timer_fires setup timed going drains
      · exact ⟨q,fires,stops⟩
      · have fewer : deadline ≤ d.next + tenthOfSecond + polls * tenthOfSecond := by
          rw [Int.natCast_add,Int.add_mul] at left_
          omega
        obtain ⟨last,path,stops⟩ := ih later waits fewer
        exact ⟨last,fires.trans path,stops⟩

-- After the signal the process is up for at most thirty seconds and one poll, as
-- long as its timer is run when due. It stops before that only when no chat
-- request is in progress, and nothing but the timer is needed to stop it.
theorem drain_bounded (path : Reachable setup meets p) (signalled : step setup p .signal = some q)
    (later : Reached (step setup) Prompt q r) :
    r.clock ≤ p.clock + thirtySeconds + tenthOfSecond ∧
    (r.stopped = true → (∀ call ∈ r.gateways.threads, Finished call) ∨ p.clock + thirtySeconds ≤ r.clock) ∧
    ∃ last, Reached (step setup) Prompt r last ∧ last.stopped = true := by
  have timed := reached_timed (signal_timed signalled) later
  have counted := reached_counted (moved_counted (reached_counted (launch_counted setup) path) (step_moved signalled).2) later
  obtain ⟨d,drains,within,before,bound⟩ := timed.due
  refine ⟨by omega,fun stopped => ?_,?_⟩
  · rcases timed.reason stopped with idle | late
    · exact .inl (counted.ended idle)
    · exact .inr late
  · apply timed_stops setup (p.clock + thirtySeconds - d.next).toNat timed drains
    simp only [tenthOfSecond]
    omega

theorem drain_bounded_busy : ∃ p q last, Reachable sampleSetup Any p ∧ step sampleSetup p .signal = some q ∧
    q.stopped = false ∧ Reached (step sampleSetup) Prompt q last ∧ last.stopped = true := by
  obtain ⟨p,ran,shown⟩ : ∃ p, run (step sampleSetup) (launch sampleSetup) busy = some p ∧
      (step sampleSetup p .signal).map Process.stopped = some false :=
    Option.map_eq_some_iff.mp (by decide +kernel)
  obtain ⟨q,signalled,going⟩ := Option.map_eq_some_iff.mp shown
  have path : Reachable sampleSetup Any p := run_reached .initial ran
  obtain ⟨-,-,last,later,stops⟩ := drain_bounded path signalled .initial
  exact ⟨p,q,last,path,signalled,going,later,stops⟩

end Timing
section Refusal
variable {setup : Setup} {p q r : Process} {action : Step} {meets : Process → Step → Prop}

-- A chat handler keeps its request, and one that has ended stays as it is.
def Kept (calls later : List Call) : Prop :=
  ∀ (i : Nat) thread, calls[i]? = some thread → ∃ now, later[i]? = some now ∧ now.request = thread.request ∧
    (exitOf thread ≠ none → now = thread)

theorem kept_refl (calls : List Call) : Kept calls calls := fun _ thread found => ⟨thread,found,rfl,fun _ => rfl⟩

theorem resumed_calls {w next : Gateways} (advanced : advance (host env) w (.resume call answers) = some next) :
    Kept w.threads next.threads := by
  obtain ⟨old,new,waits,unended,same,threads,settled⟩ := resume_cases advanced
  intro i thread found
  by_cases own : call = i
  · subst own
    rw [waits] at found
    cases Option.some.inj found
    exact ⟨new,settled,same.symm,fun ended => absurd unended ended⟩
  · rw [threads,List.getElem?_set_ne own]
    exact ⟨thread,found,rfl,fun _ => rfl⟩

theorem moved_kept (moved : Moved setup p action q) : Kept p.gateways.threads q.gateways.threads := by
  cases moved with
  | chatted request =>
    intro i thread found
    rw [settleChat_gateways]
    exact ⟨thread,(List.getElem?_append_left (List.getElem?_eq_some_iff.mp found).1).trans found,rfl,fun _ => rfl⟩
  | resumed gateways _ advanced =>
    rw [settleChat_gateways]
    exact resumed_calls advanced
  | signalled | polled =>
    rw [poll_gateways]
    exact kept_refl _
  | _ => exact kept_refl _

theorem Kept.exited {calls later : List Call} {call : Nat} (kept : Kept calls later) (exited : calls[call]?.bind exitOf = some exit) :
    later[call]?.bind exitOf = some exit := by
  obtain ⟨thread,found,ended⟩ := Option.bind_eq_some_iff.mp exited
  obtain ⟨now,known,-,same⟩ := kept call thread found
  cases same (by rw [ended]; nofun)
  rw [known]
  exact ended

def refusal (env : Env) : Response :=
  Attempt.reply false 503 ((errorJson env .noBackend (text "gateway is shutting down") []).getD [])

theorem handle_draining (env : Env) (req : HttpRequest) : handle env true req = .reply (refusal env) := by
  obtain ⟨body,dumped⟩ := Attempt.errorJson_some env .noBackend "gateway is shutting down"
  rw [handle,if_pos rfl,refusal,dumped]
  rfl

-- What a connection that is free sees from then on: at most one more request,
-- refused, after which it is closed.
inductive Leaving (env : Env) : List Seen → Phase → Prop where
  | idle : Leaving env [] .reading
  | lost : Leaving env [.read none] .closed
  | refusing : Leaving env [.read (some req)] (.replying (refusal env))
  | refused : Leaving env [.read (some req),.wrote (refusal env) delivered] .closed

-- A connection after a response: free again, or closed for good.
inductive Onward (env : Env) : Bool → List Seen → Phase → Prop where
  | reused : Leaving env seen next → Onward env true seen next
  | closed : Onward env false [] .closed

-- The same of a connection that may still be busy with a request read before. It
-- leaves a response only by writing it, and a chat handler only when that has ended.
inductive Finishing (env : Env) (calls : List Call) : Phase → List Seen → Phase → Prop where
  | waiting : Finishing env calls phase [] phase
  | free : Leaving env seen next → Finishing env calls .reading seen next
  | answered : Onward env (delivered && response.keepAlive) seen next →
      Finishing env calls (.replying response) (.wrote response delivered :: seen) next
  | ended : calls[call]?.bind exitOf = some exit → Onward env (exit = .returned true) seen next →
      Finishing env calls (.chatting call) seen next

theorem again_onward (env : Env) (reuse : Bool) : Onward env reuse [] (again reuse) := by
  cases reuse with
  | true => exact .reused .idle
  | false => exact .closed

-- A step of a session while draining, by where it stood.
inductive Calm (env : Env) (calls : List Call) (old new : Session) : Prop where
  | free : old.phase = .reading → new.trace = old.trace ++ more → Leaving env more new.phase → Calm env calls old new
  | wrote : old.phase = .replying response → new.trace = old.trace ++ [.wrote response delivered] →
      new.phase = again (delivered && response.keepAlive) → Calm env calls old new
  | going : old.phase = .chatting call → new.trace = old.trace → new.phase = .chatting call → Calm env calls old new
  | ended : old.phase = .chatting call → new.trace = old.trace → calls[call]?.bind exitOf = some exit →
      new.phase = left exit → Calm env calls old new

theorem turned_calm {old new : Session} (turned : Turned setup p q old new) (gateway : old.port = .gateway)
    (draining : p.draining = true) : Calm setup.env q.gateways.threads old new := by
  cases turned with
  | lost => exact .free rfl rfl .lost
  | scraped => cases gateway
  | threw chosen | chatted request chosen =>
    rw [draining,handle_draining] at chosen
    cases chosen
  | replied chosen =>
    rw [draining,handle_draining] at chosen
    cases chosen
    exact .free rfl rfl .refusing
  | wrote => exact .wrote rfl rfl rfl
  | resumed =>
    unfold phaseOf
    split
    · exact .going rfl rfl rfl
    · rename_i exit ended
      exact .ended rfl rfl ended rfl

theorem Leaving.turn {old new : Session} (leaving : Leaving env seen old.phase) (calm : Calm env calls old new) :
    ∃ more, new.trace = old.trace ++ more ∧ Leaving env (seen ++ more) new.phase := by
  cases calm with
  | free reading same leaves =>
    rw [reading] at leaving
    cases leaving
    exact ⟨_,same,leaves⟩
  | wrote replying same closes =>
    rw [replying] at leaving
    cases leaving
    refine ⟨_,same,?_⟩
    rw [closes,refusal,Attempt.reply,Bool.and_false]
    exact .refused
  | going chatting | ended chatting =>
    rw [chatting] at leaving
    cases leaving

theorem Onward.turn {old new : Session} (onward : Onward env reuse seen old.phase) (calm : Calm env calls old new) :
    ∃ more, new.trace = old.trace ++ more ∧ Onward env reuse (seen ++ more) new.phase := by
  generalize standing : old.phase = current at onward
  cases onward with
  | reused leaving =>
    subst standing
    obtain ⟨more,same,leaves⟩ := leaving.turn calm
    exact ⟨more,same,.reused leaves⟩
  | closed =>
    -- A closed session takes no step.
    cases calm with
    | free other | wrote other | going other | ended other =>
      rw [standing] at other
      cases other

theorem Finishing.turn {old new : Session} (finishing : Finishing env calls phase seen old.phase)
    (calm : Calm env calls old new) :
    ∃ more, new.trace = old.trace ++ more ∧ Finishing env calls phase (seen ++ more) new.phase := by
  generalize standing : old.phase = current at finishing
  cases finishing with
  | free leaving =>
    subst standing
    obtain ⟨more,same,leaves⟩ := leaving.turn calm
    exact ⟨more,same,.free leaves⟩
  | answered onward =>
    subst standing
    obtain ⟨more,same,leaves⟩ := onward.turn calm
    exact ⟨more,same,.answered leaves⟩
  | ended exited onward =>
    subst standing
    obtain ⟨more,same,leaves⟩ := onward.turn calm
    exact ⟨more,same,.ended exited leaves⟩
  | waiting =>
    subst standing
    cases calm with
    | free reading same leaves =>
      rw [reading]
      exact ⟨_,same,.free leaves⟩
    | wrote replying same after =>
      rw [replying,after]
      exact ⟨_,same,.answered (again_onward env _)⟩
    | going chatting same still =>
      rw [chatting,still]
      exact ⟨[],by rw [same,List.append_nil],.waiting⟩
    | ended chatting same exited after =>
      rw [chatting,after]
      exact ⟨[],by rw [same,List.append_nil],.ended exited (again_onward env _)⟩

theorem Finishing.kept (kept : Kept calls later) (finishing : Finishing env calls phase seen next) :
    Finishing env later phase seen next := by
  cases finishing with
  | waiting => exact .waiting
  | free leaving => exact .free leaving
  | answered onward => exact .answered onward
  | ended exited onward => exact .ended (kept.exited exited) onward

-- What has become of a session since draining began, if it was there then.
def Winding (env : Env) (calls : List Call) (before : Option Session) (session : Session) : Prop :=
  match before with
  | some old => ∃ seen, old.port = session.port ∧ session.trace = old.trace ++ seen ∧
      Finishing env calls old.phase seen session.phase
  | none => Leaving env session.trace session.phase

theorem Winding.turn {old new : Session} (winding : Winding env calls before old) (calm : Calm env calls old new)
    (port : new.port = old.port) : Winding env calls before new := by
  cases before with
  | some first =>
    obtain ⟨seen,same,trace,finishing⟩ := winding
    obtain ⟨more,extends_,finishes⟩ := finishing.turn calm
    exact ⟨seen ++ more,same.trans port.symm,by rw [extends_,trace,List.append_assoc],finishes⟩
  | none =>
    obtain ⟨more,extends_,leaves⟩ := Leaving.turn winding calm
    change Leaving env new.trace new.phase
    rw [extends_]
    exact leaves

theorem Winding.kept (kept : Kept calls later) (winding : Winding env calls before session) : Winding env later before session := by
  cases before with
  | some first =>
    obtain ⟨seen,same,trace,finishing⟩ := winding
    exact ⟨seen,same,trace,finishing.kept kept⟩
  | none => exact winding

theorem turned_port {old new : Session} (turned : Turned setup p q old new) : new.port = old.port := by
  cases turned <;> rfl

theorem moved_draining (moved : Moved setup p action q) (draining : p.draining = true) : q.draining = true := by
  obtain ⟨-,-,same⟩ | ⟨-,-,rfl⟩ | ⟨-,d,-,-,rfl⟩ := moved_drain moved
  · exact same.trans draining
  · exact poll_draining _ _
  · rw [poll_draining]
    exact draining

-- No chat handler is begun while draining.
theorem moved_requests (moved : Moved setup p action q) (draining : p.draining = true) :
    q.gateways.threads.map Thread.request = p.gateways.threads.map Thread.request := by
  cases moved with
  | chatted request _ chosen =>
    rw [draining,handle_draining] at chosen
    cases chosen
  | resumed gateways _ advanced =>
    obtain ⟨old,new,waits,-,same,threads,-⟩ := resume_cases advanced
    rw [settleChat_gateways]
    change gateways.threads.map _ = _
    rw [threads,List.map_set]
    exact set_own (by simp [waits,same])
  | signalled | polled => rw [poll_gateways]
  | _ => rfl

structure Winds (env : Env) (p q : Process) : Prop where
  draining : q.draining = true
  requests : q.gateways.threads.map Thread.request = p.gateways.threads.map Thread.request
  sessions : ∀ (j : Nat) session, q.sessions[j]? = some session → session.port = .gateway →
    Winding env q.gateways.threads p.sessions[j]? session
  kept : p.sessions.length ≤ q.sessions.length

theorem moved_winds (winds : Winds setup.env p q) (moved : Moved setup q action r) : Winds setup.env p r := by
  obtain ⟨draining,requests,sessions,kept⟩ := winds
  have still := moved_draining moved draining
  have begun := (moved_requests moved draining).trans requests
  replace sessions (j : Nat) session (found : q.sessions[j]? = some session) (gateway : session.port = .gateway) :
      Winding setup.env r.gateways.threads p.sessions[j]? session := (sessions j session found gateway).kept (moved_kept moved)
  obtain same | ⟨port,same⟩ | ⟨j,old,new,found,same,turned⟩ := moved_sessions moved
  · exact ⟨still,begun,by rw [same]; exact sessions,by rw [same]; exact kept⟩
  · refine ⟨still,begun,fun i session found gateway => ?_,by rw [same,List.length_append]; omega⟩
    rw [same] at found
    by_cases early : i < q.sessions.length
    · rw [List.getElem?_append_left early] at found
      exact sessions i session found gateway
    · rw [List.getElem?_append_right (Nat.le_of_not_lt early)] at found
      have absent : p.sessions[i]? = none := List.getElem?_eq_none (by omega)
      cases List.mem_singleton.mp (List.mem_of_getElem? found)
      rw [absent]
      exact Leaving.idle
  · refine ⟨still,begun,fun i session known gateway => ?_,by rw [same,List.length_set]; exact kept⟩
    rw [same] at known
    by_cases own : j = i
    · subst own
      rw [List.getElem?_set_self (List.getElem?_eq_some_iff.mp found).1] at known
      cases Option.some.inj known
      have port := turned_port turned
      have calm := turned_calm turned (port.symm.trans gateway) draining
      exact (sessions j old found (port.symm.trans gateway)).turn calm port
    · rw [List.getElem?_set_ne own] at known
      exact sessions i session known gateway

-- Once the drain has begun, no chat request is started and no backend asked for
-- one; a connection finishes what it was doing and is then told, for at most one
-- more request, that the gateway is shutting down.
theorem drain_refuses (draining : p.draining = true) (path : Reached (step setup) meets p q) :
    q.gateways.threads.map Thread.request = p.gateways.threads.map Thread.request ∧
    ∀ (j : Nat) session, q.sessions[j]? = some session → session.port = .gateway →
      Winding setup.env q.gateways.threads p.sessions[j]? session := by
  have start : Winds setup.env p p := by
    refine ⟨draining,rfl,fun j session found _ => ?_,Nat.le_refl _⟩
    rw [found]
    exact ⟨[],rfl,(List.append_nil _).symm,.waiting⟩
  have winds := reached_invariant (Winds setup.env p) start
    (fun _ _ _ winds _ ran => moved_winds winds (step_moved ran).2) path
  exact ⟨winds.requests,winds.sessions⟩

-- A second client connects after the signal, while the first is still served. When
-- its stream has ended, the first asks once more.
def knocking : List Step :=
  [.accept .gateway,.read 1 (some chatCall),.wrote 1 true] ++
    List.replicate 7 (.resume 0 (obliging ⟨200,false,[{block := text "data: [DONE]\n\n",done := true}]⟩ ⟨200,[]⟩)) ++
    [.read 0 (some chatCall),.wrote 0 true]

theorem drain_refuses_second : ∃ p q first second, p.draining = true ∧ Reached (step sampleSetup) Any p q ∧
    p.sessions.countP chatting = 1 ∧ q.sessions = [first,second] ∧
    (first.trace.length = 4 ∧ Winding sampleSetup.env q.gateways.threads p.sessions[0]? first) ∧
    second.trace.length = 2 ∧ Leaving sampleSetup.env second.trace second.phase := by
  obtain ⟨p,ran,shown⟩ : ∃ p, run (step sampleSetup) (launch sampleSetup) (busy ++ [.signal]) = some p ∧
      (p.draining,p.sessions.map chatting,(run (step sampleSetup) p knocking).map fun q =>
        q.sessions.map fun session => (session.port,session.trace.length)) =
          (true,[true],some [(.gateway,4),(.gateway,2)]) :=
    Option.map_eq_some_iff.mp (by decide +kernel)
  obtain ⟨draining,rest⟩ := Prod.mk.inj shown
  obtain ⟨one,knocked⟩ := Prod.mk.inj rest
  obtain ⟨q,later,both⟩ := Option.map_eq_some_iff.mp knocked
  obtain ⟨first,tail,sessions,facts,others⟩ := List.map_eq_cons_iff.mp both
  obtain ⟨second,none_,rfl,own,nothing⟩ := List.map_eq_cons_iff.mp others
  cases List.map_eq_nil_iff.mp nothing
  obtain ⟨firstPort,firstLong⟩ := Prod.mk.inj facts
  obtain ⟨secondPort,secondLong⟩ := Prod.mk.inj own
  have path : Reached (step sampleSetup) Any p q := run_reached .initial later
  have windings := (drain_refuses draining path).2
  have old := windings 0 first (by rw [sessions]; rfl) firstPort
  have new := windings 1 second (by rw [sessions]; rfl) secondPort
  obtain ⟨session,none_,alone,busy_,nothing⟩ := List.map_eq_cons_iff.mp one
  cases List.map_eq_nil_iff.mp nothing
  rw [alone] at old new
  exact ⟨p,q,first,second,draining,path,by simp [alone,busy_],sessions,⟨firstLong,by rw [alone]; exact old⟩,secondLong,new⟩

end Refusal
end Kvmux.Drain
