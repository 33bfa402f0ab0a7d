import Mathlib.Data.List.Basic
import Kvmux.Freshness
import Kvmux.Server

namespace Kvmux.Monitoring
open Coroutine Gateway Fleet Streaming Handling Failover Freshness Checker Server Tally Transition

section Health
variable {setup : Setup} {p q : Process} {action : Step} {meets : Process → Step → Prop}

def standing (backend : Backend) : HealthState × Option HealthState := (backend.health,backend.forcedHealth)

theorem exec_standing (i : Nat) (op : Op) (s : State) :
    (exec i op s).2.backends.map standing = s.backends.map standing := by
  cases op with
  | observedHealth b | load b | allowRequest b | report b | tryAcquire b | releaseSlot b =>
    exact onBackend_kept _ s b _ _ fun _ => rfl
  | _ => rfl

theorem probed_standing (s : State) (b : Nat) (found : HealthState) (unforced : ∀ backend ∈ s.backends, backend.forcedHealth = none) :
    (happen (.probed b found) s).backends.map standing = (s.backends.map standing).set b (found,none) := by
  dsimp only [happen]
  cases known : s.backends[b]? with
  | none =>
    rw [onBackend_absent known,List.set_eq_of_length_le]
    simpa using List.getElem?_eq_none_iff.mp known
  | some backend =>
    rw [onBackend_changed known,List.map_set]
    simp [standing,unforced backend (List.mem_of_getElem? known)]

-- Every backend shows what the last completed round of its monitor found.
structure Watched (setup : Setup) (p : Process) : Prop where
  types : p.monitors.map HealthMonitor.type = setup.probes.map Prod.fst
  sound : ∀ m ∈ p.monitors, m.Sound
  shown : p.gateways.shared.backends.map standing = p.monitors.map fun m => (m.verdict,none)

theorem launch_watched (setup : Setup) : Watched setup (launch setup) := by
  refine ⟨?_,?_,?_⟩
  · simp only [launch,List.map_map]
    rfl
  · intro m member
    obtain ⟨probe,-,rfl⟩ := List.mem_map.mp member
    exact HealthMonitor.run_sound _ _
  · simp only [launch,opening,construct,List.map_map]
    change setup.env.cfg.backends.map (fun _ => (HealthState.dead,none)) = setup.probes.map (fun _ => (HealthState.dead,none))
    rw [List.map_const',List.map_const',setup.paired]

theorem Watched.unforced (watched : Watched setup p) : ∀ backend ∈ p.gateways.shared.backends, backend.forcedHealth = none := by
  intro backend member
  have shown : standing backend ∈ p.gateways.shared.backends.map standing := List.mem_map_of_mem member
  rw [watched.shown] at shown
  obtain ⟨m,-,same⟩ := List.mem_map.mp shown
  exact (congrArg Prod.snd same).symm

theorem Watched.own (watched : Watched setup p) (found : p.monitors[b]? = some m) :
    (p.gateways.shared.backends.map standing).set b (m.verdict,none) = p.gateways.shared.backends.map standing :=
  set_own (by simp [watched.shown,found])

-- A monitor goes on, and its backend shows its verdict.
theorem Watched.replace {after : HealthMonitor} (watched : Watched setup p) (found : p.monitors[b]? = some m)
    (type : after.type = m.type) (sound : after.Sound) (monitors : q.monitors = p.monitors.set b after)
    (shown : q.gateways.shared.backends.map standing =
      (p.gateways.shared.backends.map standing).set b (after.verdict,none)) : Watched setup q := by
  refine ⟨?_,?_,?_⟩
  · rw [monitors,List.map_set,type,← watched.types]
    exact set_own (by simp [found])
  · rw [monitors]
    intro other member
    rcases List.mem_or_eq_of_mem_set member with old | rfl
    · exact watched.sound other old
    · exact sound
  · rw [shown,monitors,List.map_set,watched.shown]

-- Steps of the sessions and of the drain leave the monitors and all health alone.
theorem Watched.others (watched : Watched setup p) (monitors : q.monitors = p.monitors)
    (kept : q.gateways.shared.backends.map standing = p.gateways.shared.backends.map standing) : Watched setup q :=
  ⟨by rw [monitors,watched.types],by rw [monitors]; exact watched.sound,by rw [kept,monitors,watched.shown]⟩

theorem moved_watched (watched : Watched setup p) (moved : Moved setup p action q) : Watched setup q := by
  cases moved with
  | accepted | lost | scraped | threw | replied | wrote | ticked => exact watched.others rfl rfl
  | chatted request =>
    refine watched.others (by rw [settleChat_monitors]) ?_
    rw [settleChat_gateways]
    exact spawned_kept (fun s => s.backends.map standing) exec_standing _ _
  | resumed gateways _ advanced =>
    refine watched.others (by rw [settleChat_monitors]) ?_
    rw [settleChat_gateways]
    exact resumed_kept (fun s => s.backends.map standing) exec_standing advanced
  | polled => exact watched.others (poll_monitors _ _) (by rw [poll_gateways])
  | signalled =>
    refine ⟨?_,?_,?_⟩
    · rw [poll_monitors,List.map_map]
      exact watched.types
    · rw [poll_monitors]
      intro m member
      obtain ⟨before,old,rfl⟩ := List.mem_map.mp member
      exact (watched.sound before old).stop
    · rw [poll_gateways,poll_monitors,List.map_map]
      exact watched.shown
  | probing found ran =>
    have sound := watched.sound _ (List.mem_of_getElem? found)
    obtain ⟨type,verdict⟩ := HealthMonitor.resume_verdict sound ran
    exact watched.replace found type (sound.resume ran) rfl (by rw [verdict]; exact (watched.own found).symm)
  | woke found ran =>
    have sound := watched.sound _ (List.mem_of_getElem? found)
    obtain ⟨type,verdict⟩ := HealthMonitor.wake_verdict ran
    exact watched.replace found type (sound.wake ran) rfl (by rw [verdict]; exact (watched.own found).symm)
  | probed state found ran =>
    have sound := watched.sound _ (List.mem_of_getElem? found)
    obtain ⟨type,verdict⟩ := HealthMonitor.resume_verdict sound ran
    refine watched.replace found type (sound.resume ran) rfl ?_
    rw [verdict]
    exact probed_standing _ _ state watched.unforced

theorem reachable_watched (path : Reachable setup meets p) : Watched setup p :=
  reached_invariant (Watched setup) (launch_watched setup)
    (fun _ _ _ watched _ ran => moved_watched watched (step_moved ran).2) path

theorem Watched.observed (watched : Watched setup p) (b : Nat) :
    observed p.gateways.shared b = p.monitors[b]?.map HealthMonitor.verdict := by
  have shown := congrArg (fun view => view[b]?.map fun entry : HealthState × Option HealthState => entry.2.getD entry.1) watched.shown
  simp only [List.getElem?_map,Option.map_map] at shown
  exact shown

-- The health that requests are routed by is always what the responses to the last
-- completed round of probes say, and a backend is dead before its first round.
-- A round asks for the endpoints of the backend's type and for nothing else.
theorem health_current (path : Reachable setup meets p) (found : p.monitors[b]? = some m) :
    observed p.gateways.shared b = some m.verdict ∧ setup.probes[b]?.map Prod.fst = some m.type ∧
      ∀ round ∈ m.rounds, asked round = endpoints m.type := by
  have watched := reachable_watched path
  refine ⟨by rw [watched.observed,found]; rfl,?_,fun round member => ?_⟩
  · have types := congrArg (fun types => types[b]?) watched.types
    simpa [found] using types.symm
  · obtain ⟨state,run⟩ := (watched.sound m (List.mem_of_getElem? found)).past round member
    exact (probeOnce_runs run).1

theorem health_current_busy : ∃ p m, Reachable sampleSetup Any p ∧ p.monitors[0]? = some m ∧ m.rounds.length = 1 ∧
    observed p.gateways.shared 0 = some .healthy ∧ m.verdict = .healthy := by
  obtain ⟨p,path,shown⟩ : ∃ p, Reachable sampleSetup Any p ∧
      p.monitors[0]?.map (fun m => (m.rounds.length,m.verdict)) = some (1,.healthy) :=
    reached_shown busy _ (by decide +kernel)
  obtain ⟨m,found,facts⟩ := Option.map_eq_some_iff.mp shown
  obtain ⟨one,healthy⟩ := Prod.mk.inj facts
  obtain ⟨current,-,-⟩ := health_current path found
  rw [healthy] at current
  exact ⟨p,m,path,found,one,current,healthy⟩

end Health
section Dispatch
variable {setup : Setup} {p q : Process} {action : Step} {meets : Process → Step → Prop}

-- The health states that a request has been told.
def Looked (call : Call) (b : Nat) : Prop := .did (.observedHealth b) .healthy ∈ call.trace

-- A request is told that a backend is healthy only when it is at that time.
theorem moved_looked (moved : Moved setup p action q) (member : call ∈ q.gateways.threads) (looked : Looked call b) :
    (∃ before ∈ p.gateways.threads, Looked before b) ∨ observed q.gateways.shared b = some .healthy := by
  obtain same | ⟨act,-,advanced⟩ := moved_gateways moved
  · rw [same] at member
    exact .inl ⟨call,member,looked⟩
  · generalize q.gateways = next at member advanced ⊢
    obtain ⟨request,rfl,rfl⟩ | ⟨i,answers,request,trace,point,rest,rfl,waits,rfl⟩ | ⟨event,rfl,rfl⟩ :=
      advance_cases (host setup.env) advanced
    · rcases List.mem_append.mp member with old | new
      · exact .inl ⟨call,old,looked⟩
      · cases List.mem_singleton.mp new
        exact .inr (settle_seen looked)
    · rcases List.mem_or_eq_of_mem_set member with old | rfl
      · exact .inl ⟨call,old,looked⟩
      · rcases List.mem_append.mp looked with early | late
        · exact .inl ⟨_,List.mem_of_getElem? waits,early⟩
        · rcases List.mem_cons.mp late with got | now
          · cases got
          · exact .inr (settle_seen now)
    · exact .inl ⟨call,member,looked⟩

-- At some state of the run so far the monitor of the backend vouched for it.
def Vouched (setup : Setup) (meets : Process → Step → Prop) (q : Process) (b : Nat) : Prop :=
  ∃ p m, Reachable setup meets p ∧ Reached (step setup) meets p q ∧ p.monitors[b]? = some m ∧ m.verdict = .healthy

theorem looked_vouched (path : Reachable setup meets q) :
    ∀ call ∈ q.gateways.threads, ∀ b, Looked call b → Vouched setup meets q b := by
  induction path with
  | initial =>
    intro call member
    cases member
  | step before met ran ih =>
    intro call member b looked
    obtain ⟨earlier,old,seen⟩ | healthy := moved_looked (step_moved ran).2 member looked
    · obtain ⟨p,m,reached,later,found,vouches⟩ := ih earlier old b seen
      exact ⟨p,m,reached,.step later met ran,found,vouches⟩
    · have path := Reached.step before met ran
      rw [(reachable_watched path).observed] at healthy
      obtain ⟨m,found,vouches⟩ := Option.map_eq_some_iff.mp healthy
      exact ⟨_,m,path,.initial,found,vouches⟩

-- A request looks at a backend before it is sent there.
theorem tried_looked {call : Call} (path : Path (handleChat env call.request) call.trace call.code) (member : b ∈ tried call) :
    Looked call b := by
  rcases List.mem_append.mp member with past | now
  · obtain ⟨before,answer,after,split⟩ : ∃ before answer after, call.trace = before ++ .got (.connect b) answer :: after := by
      obtain ⟨shown,inside,dispatched⟩ := List.mem_filterMap.mp past
      obtain ⟨event,occurs,shows⟩ := notes_shown inside
      obtain ⟨before,after,split⟩ := List.append_of_mem occurs
      cases shows with
      | dispatched =>
        cases Option.some.inj dispatched
        exact ⟨before,_,after,split⟩
      | _ => cases dispatched
    -- The path is completed to a run, and the run says what was seen before the connect.
    obtain ⟨more,exit,ends⟩ := completes (fun op => (exec 0 op (construct env.cfg)).1) refusing call.code
    have each := handled_fit (handleChat_runs (path.trans ends))
    rw [split,List.append_assoc,List.cons_append] at each
    have seen := each.at_split.offered.2
    rw [Looked,split]
    exact List.mem_append_left _ seen
  · have one : connecting call.code = [b] := by
      unfold connecting at now ⊢
      split at now
      · cases List.mem_singleton.mp now
        rfl
      · cases now
    exact (connecting_fit path one).1.offered.2

-- Every backend that a chat request is sent to, at once or on the retry, was
-- vouched for by the probes of its own monitor.
theorem dispatch_vouched (path : Reachable setup meets q) (member : call ∈ q.gateways.threads) (sent : b ∈ tried call) :
    Vouched setup meets q b := by
  have own := reached_path (host setup.env) (reachable_gateways path) call member
  exact looked_vouched path call member b (tried_looked own sent)

theorem dispatch_vouched_busy : ∃ q call, Reachable sampleSetup Any q ∧ call ∈ q.gateways.threads ∧ tried call = [0] ∧
    Vouched sampleSetup Any q 0 := by
  obtain ⟨q,path,shown⟩ : ∃ q, Reachable sampleSetup Any q ∧ q.gateways.threads.map tried = [[0]] :=
    reached_shown busy _ (by decide +kernel)
  obtain ⟨call,calls,one⟩ := List.map_eq_singleton_iff.mp shown
  have member : call ∈ q.gateways.threads := by simp [calls]
  exact ⟨q,call,path,member,one,dispatch_vouched path member (by simp [one])⟩

end Dispatch
section Stopping
variable {setup : Setup} {p q r : Process} {action : Step} {meets more : Process → Step → Prop} {b : Nat}

-- Steps change one monitor at most, or stop them all.
theorem moved_monitors (moved : Moved setup p action q) :
    (q.draining = p.draining ∧ q.monitors = p.monitors) ∨
    (q.draining = true ∧ q.monitors = p.monitors.map HealthMonitor.stop) ∨
    (q.draining = p.draining ∧ ∃ b m after, p.monitors[b]? = some m ∧ q.monitors = p.monitors.set b after ∧
      ((∃ now answers found, m.resume now answers = some (after,found)) ∨ ∃ now cancelled, m.wake now cancelled = some after)) := by
  cases moved with
  | probing found ran => exact .inr (.inr ⟨rfl,_,_,_,found,rfl,.inl ⟨_,_,_,ran⟩⟩)
  | probed state found ran => exact .inr (.inr ⟨rfl,_,_,_,found,rfl,.inl ⟨_,_,_,ran⟩⟩)
  | woke found ran => exact .inr (.inr ⟨rfl,_,_,_,found,rfl,.inr ⟨_,_,ran⟩⟩)
  | signalled => exact .inr (.inl ⟨poll_draining _ _,poll_monitors _ _⟩)
  | polled => exact .inl ⟨poll_draining _ _,poll_monitors _ _⟩
  | chatted | resumed => exact .inl ⟨settleChat_draining _ _ _ _,settleChat_monitors _ _ _ _⟩
  | _ => exact .inl ⟨rfl,rfl⟩

def Probes (m : HealthMonitor) : Prop := ∃ code, m.phase = .probing code

-- A stopped monitor completes the round it is in and begins no other.
structure Ceasing (old new : HealthMonitor) : Prop where
  stopped : new.stopped = true
  rounds : (new.rounds = old.rounds ∧ (Probes new → Probes old)) ∨
    (¬Probes new ∧ Probes old ∧ ∃ round, new.rounds = round :: old.rounds)

theorem Ceasing.resume {m after : HealthMonitor} (ceasing : Ceasing old m) (ran : m.resume now answers = some (after,found)) :
    Ceasing old after := by
  obtain ⟨point,next,probing,⟨value,ended,rfl,rfl⟩ | ⟨rfl,rfl⟩⟩ := HealthMonitor.resume_cases ran
  · refine ⟨ceasing.stopped,.inr ⟨nofun,?_⟩⟩
    rcases ceasing.rounds with ⟨same,still⟩ | ⟨never,-⟩
    · exact ⟨still ⟨_,probing⟩,_,by rw [same]⟩
    · exact absurd ⟨_,probing⟩ never
  · refine ⟨ceasing.stopped,?_⟩
    rcases ceasing.rounds with ⟨same,still⟩ | ⟨never,-⟩
    · exact .inl ⟨same,fun _ => still ⟨_,probing⟩⟩
    · exact absurd ⟨_,probing⟩ never

theorem Ceasing.wake {m after : HealthMonitor} (ceasing : Ceasing old m) (ran : m.wake now cancelled = some after) :
    Ceasing old after := by
  have ended : after = {m with phase := .ended} := by
    obtain ⟨due,-,⟨-,rfl⟩ | ⟨-,-,rfl⟩⟩ := HealthMonitor.wake_cases ran
    · rfl
    · rw [HealthMonitor.loop,if_pos ceasing.stopped]
  subst ended
  refine ⟨ceasing.stopped,?_⟩
  rcases ceasing.rounds with ⟨same,-⟩ | ⟨-,last⟩
  · exact .inl ⟨same,nofun⟩
  · exact .inr ⟨nofun,last⟩

theorem resume_stopped {m after : HealthMonitor} (ran : m.resume now answers = some (after,found)) : after.stopped = m.stopped := by
  obtain ⟨point,next,probing,⟨value,ended,rfl,rfl⟩ | ⟨rfl,rfl⟩⟩ := HealthMonitor.resume_cases ran
  · rfl
  · rfl

theorem wake_stopped {m after : HealthMonitor} (ran : m.wake now cancelled = some after) : after.stopped = m.stopped := by
  obtain ⟨due,-,⟨-,rfl⟩ | ⟨-,-,rfl⟩⟩ := HealthMonitor.wake_cases ran
  · rfl
  · unfold HealthMonitor.loop
    split
    · rfl
    · rfl

-- All monitors are stopped from the moment the drain begins.
def Stopped (p : Process) : Prop := p.draining = true → ∀ m ∈ p.monitors, m.stopped = true

theorem moved_stopped (stopped : Stopped p) (moved : Moved setup p action q) : Stopped q := by
  intro draining
  obtain ⟨same,monitors⟩ | ⟨-,monitors⟩ | ⟨same,b,m,after,found,monitors,went⟩ := moved_monitors moved
  · rw [monitors]
    exact stopped (same.symm.trans draining)
  · rw [monitors]
    intro m member
    obtain ⟨before,-,rfl⟩ := List.mem_map.mp member
    rfl
  · rw [monitors]
    have all := stopped (same.symm.trans draining)
    intro other member
    rcases List.mem_or_eq_of_mem_set member with old | rfl
    · exact all other old
    · have own := all m (List.mem_of_getElem? found)
      rcases went with ⟨now,answers,state,ran⟩ | ⟨now,cancelled,ran⟩
      · exact (resume_stopped ran).trans own
      · exact (wake_stopped ran).trans own

theorem reachable_stopped (path : Reachable setup meets p) : Stopped p := by
  apply reached_invariant Stopped _ (fun _ _ _ stopped _ ran => moved_stopped stopped (step_moved ran).2) path
  intro draining
  cases draining

def Ceased (p q : Process) : Prop :=
  ∀ (b : Nat) old, p.monitors[b]? = some old → ∃ new, q.monitors[b]? = some new ∧ Ceasing old new

theorem moved_ceased (ceased : Ceased p q) (moved : Moved setup q action r) : Ceased p r := by
  intro b old known
  obtain ⟨new,found,ceasing⟩ := ceased b old known
  obtain ⟨-,monitors⟩ | ⟨-,monitors⟩ | ⟨-,c,m,after,other,monitors,went⟩ := moved_monitors moved
  · exact ⟨new,by rw [monitors,found],ceasing⟩
  · exact ⟨new.stop,by rw [monitors,List.getElem?_map,found]; rfl,rfl,ceasing.rounds⟩
  · by_cases own : c = b
    · subst own
      cases Option.some.inj (found.symm.trans other)
      refine ⟨after,by rw [monitors,List.getElem?_set_self (List.getElem?_eq_some_iff.mp found).1],?_⟩
      rcases went with ⟨now,answers,state,ran⟩ | ⟨now,cancelled,ran⟩
      · exact ceasing.resume ran
      · exact ceasing.wake ran
    · exact ⟨new,by rw [monitors,List.getElem?_set_ne own,found],ceasing⟩

-- Once the drain has begun no round of probes is started: each monitor completes
-- at most the one it is in, so the health of a backend changes at most once more.
theorem probes_cease (path : Reachable setup meets p) (draining : p.draining = true) (later : Reached (step setup) more p q)
    (known : p.monitors[b]? = some old) :
    ∃ new, q.monitors[b]? = some new ∧ ((new.rounds = old.rounds ∧ (Probes new → Probes old)) ∨
      (¬Probes new ∧ Probes old ∧ ∃ round, new.rounds = round :: old.rounds)) := by
  have start : Ceased p p := by
    intro b old known
    have stopped := reachable_stopped path draining old (List.mem_of_getElem? known)
    exact ⟨old,known,stopped,.inl ⟨rfl,id⟩⟩
  have ceased : Ceased p q := reached_invariant (Ceased p) start
    (fun _ _ _ ceased _ ran => moved_ceased ceased (step_moved ran).2) later
  obtain ⟨new,found,ceasing⟩ := ceased b old known
  exact ⟨new,found,ceasing.rounds⟩

-- The monitor is in its second round when the signal comes.
def interrupted : List Step := busy ++ [.tick 2000000000,.wake 0 false,.signal]

def roundEnds : List Step := [.probe 0 fine,.probe 0 fine,.probe 0 fine,.tick 2000000000,.wake 0 false]

theorem probes_cease_interrupted : ∃ p q new, Reachable sampleSetup Any p ∧ p.draining = true ∧
    Reached (step sampleSetup) Any p q ∧ q.monitors[0]? = some new ∧ new.rounds.length = 2 := by
  obtain ⟨p,ran,shown⟩ : ∃ p, run (step sampleSetup) (launch sampleSetup) interrupted = some p ∧
      (p.draining,p.monitors[0]?.map fun m => m.rounds.length,(run (step sampleSetup) p roundEnds).map fun q =>
        q.monitors[0]?.map fun m => m.rounds.length) = (true,some 1,some (some 2)) :=
    Option.map_eq_some_iff.mp (by decide +kernel)
  obtain ⟨draining,rest⟩ := Prod.mk.inj shown
  obtain ⟨first,after⟩ := Prod.mk.inj rest
  obtain ⟨old,known,-⟩ := Option.map_eq_some_iff.mp first
  obtain ⟨q,ends,last⟩ := Option.map_eq_some_iff.mp after
  have path : Reachable sampleSetup Any p := run_reached .initial ran
  have later : Reached (step sampleSetup) Any p q := run_reached .initial ends
  obtain ⟨new,found,-⟩ := probes_cease path draining later known
  rw [found] at last
  exact ⟨p,q,new,path,draining,later,found,Option.some.inj last⟩

end Stopping
end Kvmux.Monitoring
