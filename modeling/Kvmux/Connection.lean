import Mathlib.Data.List.Basic
import Kvmux.Drain
import Kvmux.Failover

namespace Kvmux.Connection
open Coroutine Gateway Fleet Routes Streaming Attempt Handling Server Transition Tally
open Drain (Kept moved_kept resume_cases turned_port)

section Reuse

-- The handler lets a connection be used again only if the client asked for that.
theorem answered_reuse (answered : Answered labels keepAlive status body t outcome) (returned : outcome.exit = .returned true) :
    keepAlive = true := by
  cases answered with
  | unwritable => cases returned
  | written =>
    dsimp only at returned
    split at returned
    · cases returned
      rfl
    · cases returned

theorem tried_reuse (tried : Tried env job labels b isProbe more t (.finish outcome)) (returned : outcome.exit = .returned true) :
    job.keepAlive = true := by
  cases tried with
  | unary _ unary =>
    generalize verdict : Verdict.finish outcome = v at unary
    cases unary with
    | unreachable | failedOver => cases verdict
    | surfaced _ _ _ _ answered | relayedError _ _ _ _ answered | relayed _ _ _ answered =>
      cases verdict
      exact answered_reuse answered returned
  | stream _ stream =>
    generalize verdict : Verdict.finish outcome = v at stream
    cases stream with
    | failedOver => cases verdict
    | surfaced _ _ _ _ answered =>
      cases verdict
      exact answered_reuse answered returned
    | unopened | abandoned | truncated =>
      cases verdict
      cases returned
    | emptied | completed =>
      cases verdict
      have both := Exit.returned.inj returned
      exact (Bool.and_eq_true_iff.mp both).2

theorem walk_reuse (walk : Walk env job order attempts t outcome) (returned : outcome.exit = .returned true) :
    job.keepAlive = true := by
  induction walk with
  | exhausted _ answered => exact answered_reuse answered returned
  | denied _ _ _ _ ih => exact ih returned
  | full _ _ _ _ ih => exact ih returned
  | failedOver _ _ _ _ _ ih => exact ih returned
  | served _ _ _ tried => exact tried_reuse tried returned

theorem handled_reuse (handled : Handled env req t exit) (returned : exit = .returned true) : req.keepAlive = true := by
  cases handled with
  | declined _ _ _ _ answered => exact answered_reuse answered returned
  | failed => cases returned
  | walked _ _ _ keepAlive _ _ walk => exact keepAlive.symm.trans (walk_reuse walk returned)

theorem replying_reuse (chosen : replying keepAlive status body = .reply response) : response.keepAlive = keepAlive := by
  cases body with
  | none => cases chosen
  | some bytes =>
    cases chosen
    rfl

theorem handle_reuse (chosen : handle env draining req = .reply response) (reuse : response.keepAlive = true) :
    draining = false ∧ req.keepAlive = true := by
  unfold handle handleModels at chosen
  split at chosen
  · rw [replying_reuse chosen] at reuse
    cases reuse
  · rename_i up
    refine ⟨by simpa using up,?_⟩
    split at chosen
    · rw [← reuse,replying_reuse chosen]
    · split at chosen
      · rw [← reuse,replying_reuse chosen]
      · split at chosen
        · cases chosen
        · rw [← reuse,replying_reuse chosen]

theorem handle_chat (chosen : handle env draining req = .chat request) : request = ⟨req.body,req.keepAlive⟩ := by
  have never : ∀ {keepAlive status body}, replying keepAlive status body ≠ .chat request := by
    intro keepAlive status body
    cases body <;> nofun
  unfold handle handleModels at chosen
  split at chosen
  · exact absurd chosen never
  · split at chosen
    · exact absurd chosen never
    · split at chosen
      · exact absurd chosen never
      · split at chosen
        · exact (Dispatch.chat.inj chosen).symm
        · exact absurd chosen never

end Reuse
section Talk
variable {setup : Setup} {p q : Process} {action : Step} {meets : Process → Step → Prop}

-- A request that was answered in full, as part of a connection's trace.
inductive Served (env : Env) (calls : List Call) (req : HttpRequest) : Seen → Prop where
  | json : handle env false req = .reply response → Served env calls req (.wrote response true)
  | chat : calls[call]? = some thread → thread.request = ⟨req.body,req.keepAlive⟩ → exitOf thread = some (.returned true) →
      Failover.Complete (writes (notes thread.trace)) → Served env calls req (.chatted call)

-- Requests answered in full, one after the other, each with leave to go on.
inductive Exchanges (env : Env) (calls : List Call) : List Seen → Prop where
  | none : Exchanges env calls []
  | more : Exchanges env calls past → req.keepAlive = true → Served env calls req seen →
      Exchanges env calls (past ++ [.read (some req),seen])

-- The last thing on a connection that was closed.
inductive Last : List Seen → Prop where
  | lost : Last [.read none]
  | threw : Last [.read (some req)]
  | wrote : Last [.read (some req),.wrote response delivered]
  | chatted : Last [.read (some req),.chatted call]

-- The trace of a connection to the gateway, by where the session stands.
def Talk (env : Env) (calls : List Call) (trace : List Seen) : Phase → Prop
  | .reading => Exchanges env calls trace
  | .replying response => ∃ past req draining, trace = past ++ [.read (some req)] ∧ Exchanges env calls past ∧
      handle env draining req = .reply response
  | .chatting call => ∃ past req thread, trace = past ++ [.read (some req),.chatted call] ∧ Exchanges env calls past ∧
      calls[call]? = some thread ∧ thread.request = ⟨req.body,req.keepAlive⟩
  | .closed => ∃ past last, trace = past ++ last ∧ Exchanges env calls past ∧ Last last

theorem again_talk (past : Exchanges env calls before) (last : Last tail)
    (reuse : keepAlive = true → Exchanges env calls (before ++ tail)) : Talk env calls (before ++ tail) (again keepAlive) := by
  cases keepAlive with
  | true => exact reuse rfl
  | false => exact ⟨before,tail,rfl,past,last⟩

-- A session that waits for the chat handler, or has just seen it end.
theorem chat_talk {call : Nat} (path : Reachable setup meets q) (past : Exchanges setup.env q.gateways.threads before)
    (found : q.gateways.threads[call]? = some thread) (request : thread.request = ⟨req.body,req.keepAlive⟩) :
    Talk setup.env q.gateways.threads (before ++ [.read (some req),.chatted call]) (phaseOf q.gateways call) := by
  unfold phaseOf
  rw [found,Option.bind_some]
  cases ended : exitOf thread with
  | none => exact ⟨before,req,thread,rfl,past,found,request⟩
  | some exit =>
    apply again_talk past .chatted
    intro returned
    have returned : exit = .returned true := by simpa using returned
    subst returned
    have own := reached_path (host setup.env) (reachable_gateways path) thread (List.mem_of_getElem? found)
    have code : thread.code = .ret (.returned true) := by
      unfold exitOf at ended
      split at ended
      · rename_i code
        rw [code,Option.some.inj ended]
      · cases ended
    rw [code] at own
    have handled := handleChat_runs own
    have keepAlive := handled_reuse handled rfl
    rw [request] at keepAlive
    exact .more past keepAlive (.chat found request ended ((Failover.handled_served handled).complete rfl))

theorem Exchanges.kept (kept : Kept calls later) (past : Exchanges env calls trace) : Exchanges env later trace := by
  induction past with
  | none => exact .none
  | more _ reuse served ih =>
    refine .more ih reuse ?_
    cases served with
    | json chosen => exact .json chosen
    | chat found request ended complete =>
      obtain ⟨now,known,-,same⟩ := kept _ _ found
      cases same (by rw [ended]; nofun)
      exact .chat known request ended complete

theorem Talk.kept (kept : Kept calls later) (talk : Talk env calls trace phase) : Talk env later trace phase := by
  cases phase with
  | reading => exact Exchanges.kept kept talk
  | replying response =>
    obtain ⟨past,req,draining,split,before,chosen⟩ := talk
    exact ⟨past,req,draining,split,before.kept kept,chosen⟩
  | chatting call =>
    obtain ⟨past,req,thread,split,before,found,request⟩ := talk
    obtain ⟨now,known,same,-⟩ := kept call thread found
    exact ⟨past,req,now,split,before.kept kept,known,same.trans request⟩
  | closed =>
    obtain ⟨past,last,split,before,ends⟩ := talk
    exact ⟨past,last,split,before.kept kept,ends⟩

theorem spawned_last (env : Env) (w : Gateways) (request : Request) :
    ∃ thread, (spawned env w request).threads = w.threads ++ [thread] ∧ thread.request = request :=
  ⟨_,rfl,rfl⟩

theorem turned_talk (path : Reachable setup meets q) (turned : Turned setup p q old new) (gateway : old.port = .gateway)
    (kept : Kept p.gateways.threads q.gateways.threads) (talk : Talk setup.env p.gateways.threads old.trace old.phase) :
    Talk setup.env q.gateways.threads new.trace new.phase := by
  replace talk := talk.kept kept
  cases turned with
  | lost => exact ⟨_,_,rfl,talk,.lost⟩
  | scraped => cases gateway
  | threw => exact ⟨_,_,rfl,talk,.threw⟩
  | replied chosen => exact ⟨_,_,_,rfl,talk,chosen⟩
  | chatted request chosen spawned =>
    rw [List.append_assoc]
    obtain ⟨thread,threads,same⟩ := spawned_last setup.env p.gateways request
    have found : q.gateways.threads[p.gateways.threads.length]? = some thread := by
      rw [spawned,threads]
      exact List.getElem?_concat_length
    exact chat_talk path talk found (same.trans (handle_chat chosen))
  | wrote =>
    obtain ⟨past,req,draining,rfl,before,chosen⟩ := talk
    rw [List.append_assoc]
    refine again_talk before .wrote fun reuse => ?_
    obtain ⟨rfl,keepAlive⟩ := Bool.and_eq_true_iff.mp reuse
    obtain ⟨rfl,asked⟩ := handle_reuse chosen keepAlive
    exact .more before asked (.json chosen)
  | resumed =>
    obtain ⟨past,req,thread,rfl,before,found,request⟩ := talk
    exact chat_talk path before found request

-- The only request that came on a connection, and the state that it came in.
def ReadIn (setup : Setup) (actions : List Step) (j : Nat) (req : HttpRequest) (then_ : Process) : Prop :=
  ∃ before after, actions = before ++ .read j (some req) :: after ∧ (∀ request, .read j request ∉ before ++ after) ∧
    run (step setup) (launch setup) before = some then_

-- The trace of a connection to the metrics port: one request, which is answered
-- with the registry as it stood when the request came.
inductive Once (setup : Setup) (actions : List Step) (j : Nat) : List Seen → Phase → Prop where
  | fresh : (∀ request, .read j request ∉ actions) → Once setup actions j [] .reading
  | lost : Once setup actions j [.read none] .closed
  | asked : ReadIn setup actions j req then_ → Once setup actions j [.read (some req)] (.replying (scrape setup then_ req))
  | answered : ReadIn setup actions j req then_ →
      Once setup actions j [.read (some req),.wrote (scrape setup then_ req) delivered] .closed

theorem scrape_closes (setup : Setup) (p : Process) (req : HttpRequest) : (scrape setup p req).keepAlive = false := by
  unfold scrape
  split <;> rfl

theorem ReadIn.later (readIn : ReadIn setup actions j req then_) (other : ∀ request, action ≠ .read j request) :
    ReadIn setup (actions ++ [action]) j req then_ := by
  obtain ⟨before,after,rfl,only,ran⟩ := readIn
  refine ⟨before,after ++ [action],by simp,fun request member => ?_,ran⟩
  rw [← List.append_assoc] at member
  obtain old | new := List.mem_append.mp member
  · exact only request old
  · exact other request (List.mem_singleton.mp new).symm

theorem Once.later (once : Once setup actions j trace phase) (other : ∀ request, action ≠ .read j request) :
    Once setup (actions ++ [action]) j trace phase := by
  cases once with
  | fresh unread =>
    refine .fresh fun request member => ?_
    obtain old | new := List.mem_append.mp member
    · exact unread request old
    · exact other request (List.mem_singleton.mp new).symm
  | lost => exact .lost
  | asked readIn => exact .asked (readIn.later other)
  | answered readIn => exact .answered (readIn.later other)

def Scraped (setup : Setup) (actions : List Step) (j : Nat) (session : Session) : Prop :=
  session.port = .metrics → Once setup actions j session.trace session.phase

theorem scraped_set {sessions : List Session}
    (scraped : ∀ (j : Nat) session, sessions[j]? = some session → Scraped setup actions j session)
    (own : Scraped setup (actions ++ [action]) k new) (other : ∀ j request, action = .read j request → j = k) :
    ∀ (j : Nat) session, (sessions.set k new)[j]? = some session → Scraped setup (actions ++ [action]) j session := by
  intro j session found
  by_cases same : k = j
  · subst same
    obtain ⟨inside,known⟩ := List.getElem?_eq_some_iff.mp found
    rw [List.getElem_set_self] at known
    exact known ▸ own
  · rw [List.getElem?_set_ne same] at found
    exact fun metrics => (scraped j session found metrics).later fun request read => same (other j request read).symm

theorem moved_scraped (ran : run (step setup) (launch setup) actions = some p) (moved : Moved setup p action q)
    (seated : ∀ j request, .read j request ∈ actions → j < p.sessions.length)
    (scraped : ∀ (j : Nat) session, p.sessions[j]? = some session → Scraped setup actions j session) :
    ∀ (j : Nat) session, q.sessions[j]? = some session → Scraped setup (actions ++ [action]) j session := by
  cases moved with
  | accepted =>
    intro j session found metrics
    obtain inside | outside := Nat.lt_or_ge j p.sessions.length
    · rw [List.getElem?_append_left inside] at found
      exact (scraped j session found metrics).later nofun
    · rw [List.getElem?_append_right outside] at found
      cases List.mem_singleton.mp (List.mem_of_getElem? found)
      have unread request : .read j request ∉ actions := fun member => Nat.not_lt.mpr outside (seated j request member)
      exact Once.later (.fresh unread) nofun
  | lost found =>
    refine scraped_set scraped (fun metrics => ?_) fun _ _ same => (Step.read.inj same).1.symm
    cases scraped _ _ found metrics with
    | fresh => exact .lost
  | scraped found =>
    refine scraped_set scraped (fun metrics => ?_) fun _ _ same => (Step.read.inj same).1.symm
    cases scraped _ _ found metrics with
    | fresh unread => exact .asked ⟨actions,[],rfl,by simpa using unread,ran⟩
  | threw found | replied found => exact scraped_set scraped nofun fun _ _ same => (Step.read.inj same).1.symm
  | chatted request found =>
    rw [settleChat_sessions]
    exact scraped_set scraped nofun fun _ _ same => (Step.read.inj same).1.symm
  | wrote found =>
    refine scraped_set scraped (fun metrics => ?_) nofun
    cases scraped _ _ found metrics with
    | asked readIn =>
      rw [scrape_closes,Bool.and_false]
      exact .answered (readIn.later nofun)
  | resumed gateways found =>
    rw [settleChat_sessions]
    exact scraped_set scraped (fun metrics => nomatch scraped _ _ found metrics) nofun
  | probing | probed | woke | ticked => exact fun j session found metrics => (scraped j session found metrics).later nofun
  | signalled | polled =>
    rw [poll_sessions]
    exact fun j session found metrics => (scraped j session found metrics).later nofun

theorem moved_seated (moved : Moved setup p action q) (seated : ∀ j request, .read j request ∈ actions → j < p.sessions.length) :
    ∀ j request, .read j request ∈ actions ++ [action] → j < q.sessions.length := by
  have grown : p.sessions.length ≤ q.sessions.length := by
    obtain same | ⟨port,same⟩ | ⟨k,old,new,-,same,-⟩ := moved_sessions moved <;> simp [same]
  intro j request member
  obtain old | new := List.mem_append.mp member
  · exact Nat.lt_of_lt_of_le (seated j request old) grown
  · cases List.mem_singleton.mp new
    have found : ∃ session, p.sessions[j]? = some session := by
      cases moved with
      | lost found | scraped found | threw found | replied found | chatted _ found => exact ⟨_,found⟩
    obtain ⟨session,found⟩ := found
    exact Nat.lt_of_lt_of_le (List.getElem?_eq_some_iff.mp found).1 grown

theorem ran_scraped (ran : run (step setup) (launch setup) actions = some p) :
    (∀ j request, .read j request ∈ actions → j < p.sessions.length) ∧
    ∀ (j : Nat) session, p.sessions[j]? = some session → Scraped setup actions j session := by
  refine run_invariant (fun actions p => (∀ j request, .read j request ∈ actions → j < p.sessions.length) ∧
    ∀ (j : Nat) session, p.sessions[j]? = some session → Scraped setup actions j session) ⟨nofun,?_⟩ ?_ ran
  · intro j session found
    cases found
  · rintro actions p action q ran ⟨seated,scraped⟩ stepped
    have moved := (step_moved stepped).2
    exact ⟨moved_seated moved seated,moved_scraped ran moved seated scraped⟩

theorem moved_talk (after : Reachable setup meets q) (moved : Moved setup p action q)
    (talk : ∀ session ∈ p.sessions, session.port = .gateway → Talk setup.env p.gateways.threads session.trace session.phase) :
    ∀ session ∈ q.sessions, session.port = .gateway → Talk setup.env q.gateways.threads session.trace session.phase := by
  have kept := moved_kept moved
  have unturned : ∀ session ∈ p.sessions, session.port = .gateway → Talk setup.env q.gateways.threads session.trace session.phase :=
    fun session member gateway => (talk session member gateway).kept kept
  obtain same | ⟨port,same⟩ | ⟨j,old,new,found,same,turned⟩ := moved_sessions moved
  · rw [same]
    exact unturned
  · rw [same]
    intro session member gateway
    obtain member | fresh := List.mem_append.mp member
    · exact unturned session member gateway
    · cases List.mem_singleton.mp fresh
      exact Exchanges.none
  · rw [same]
    intro session member gateway
    obtain member | rfl := List.mem_or_eq_of_mem_set member
    · exact unturned session member gateway
    · have port := (turned_port turned).symm.trans gateway
      exact turned_talk after turned port kept (talk old (List.mem_of_getElem? found) port)

theorem reachable_talk (path : Reachable setup meets p) :
    ∀ session ∈ p.sessions, session.port = .gateway → Talk setup.env p.gateways.threads session.trace session.phase := by
  induction path with
  | initial => nofun
  | step before met ran ih => exact moved_talk (.step before met ran) (step_moved ran).2 ih

-- On every connection requests and responses alternate; a further request is only
-- read after the response before was written in full, by leave of the client.
theorem connection_orderly (ran : run (step setup) (launch setup) actions = some p) (found : p.sessions[j]? = some session) :
    (session.port = .gateway → Talk setup.env p.gateways.threads session.trace session.phase) ∧
    (session.port = .metrics → Once setup actions j session.trace session.phase) := by
  have path : Reachable setup Any p := run_reached .initial ran
  exact ⟨reachable_talk path session (List.mem_of_getElem? found),(ran_scraped ran).2 j session found⟩

-- After the stream the client asks for the models on the same connection, and
-- another client for the metrics.
def reused : List Step :=
  busy ++ List.replicate 7 (.resume 0 (obliging ⟨200,false,[{block := text "data: [DONE]\n\n",done := true}]⟩ ⟨200,[]⟩)) ++
    [.read 0 (some ⟨.get,text "/v1/models",[],true⟩),.wrote 0 true,
      .accept .metrics,.read 1 (some ⟨.get,text "/metrics",[],false⟩),.wrote 1 true]

theorem connection_orderly_reused : ∃ p chat metrics, run (step sampleSetup) (launch sampleSetup) reused = some p ∧
    p.sessions = [chat,metrics] ∧
    (chat.trace.length = 4 ∧ Talk sampleSetup.env p.gateways.threads chat.trace chat.phase) ∧
    metrics.trace.length = 2 ∧ Once sampleSetup reused 1 metrics.trace metrics.phase := by
  obtain ⟨p,ran,shown⟩ : ∃ p, run (step sampleSetup) (launch sampleSetup) reused = some p ∧
      p.sessions.map (fun session => (session.port,session.trace.length)) = [(.gateway,4),(.metrics,2)] :=
    Option.map_eq_some_iff.mp (by decide +kernel)
  obtain ⟨chat,tail,sessions,facts,others⟩ := List.map_eq_cons_iff.mp shown
  obtain ⟨metrics,none_,rfl,own,nothing⟩ := List.map_eq_cons_iff.mp others
  cases List.map_eq_nil_iff.mp nothing
  obtain ⟨chatPort,chatLong⟩ := Prod.mk.inj facts
  obtain ⟨metricsPort,metricsLong⟩ := Prod.mk.inj own
  have talk := (connection_orderly ran (j := 0) (by rw [sessions]; rfl)).1 chatPort
  have once := (connection_orderly ran (j := 1) (by rw [sessions]; rfl)).2 metricsPort
  exact ⟨p,chat,metrics,ran,sessions,⟨chatLong,talk⟩,metricsLong,once⟩

end Talk
section Ownership
variable {setup : Setup} {p q : Process} {action : Step} {meets : Process → Step → Prop} {i j call : Nat}

-- The chat handlers that a connection has begun.
def chats (session : Session) : List Nat := session.trace.filterMap fun
  | .chatted call => some call
  | _ => none

def Waiting (sessions : List Session) (i : Nat) : Prop :=
  ∃ j : Nat, ∃ session, sessions[j]? = some session ∧ session.phase = .chatting i

structure Owned (p : Process) : Prop where
  once : (p.sessions.flatMap chats).Perm (List.range p.gateways.threads.length)
  attended : ∀ (i : Nat) thread, p.gateways.threads[i]? = some thread → exitOf thread = none → Waiting p.sessions i
  unended : ∀ (j : Nat) session i, p.sessions[j]? = some session → session.phase = .chatting i →
    p.gateways.threads[i]?.map exitOf = some none

theorem Owned.congr (owned : Owned p) (sessions : q.sessions = p.sessions) (gateways : q.gateways.threads = p.gateways.threads) :
    Owned q := by
  obtain ⟨once,attended,unended⟩ := owned
  exact ⟨by rw [sessions,gateways]; exact once,by rw [sessions,gateways]; exact attended,by rw [sessions,gateways]; exact unended⟩

theorem waiting_set {sessions : List Session} {old : Session} (found : sessions[j]? = some old) (busy : old.phase ≠ .chatting i)
    (waiting : Waiting sessions i) (new : Session) : Waiting (sessions.set j new) i := by
  obtain ⟨k,session,known,chatting⟩ := waiting
  have other : j ≠ k := by
    rintro rfl
    cases Option.some.inj (found.symm.trans known)
    exact busy chatting
  exact ⟨k,session,by rw [List.getElem?_set_ne other]; exact known,chatting⟩

theorem once_set {sessions : List Session} {old new : Session} {begun extra after : List Nat}
    (once : (sessions.flatMap chats).Perm begun) (found : sessions[j]? = some old) (grown : chats new = chats old ++ extra)
    (all : after = begun ++ extra) : ((sessions.set j new).flatMap chats).Perm after := by
  rw [all]
  exact (flatMap_set found grown).trans (once.append_right extra)

-- A session that neither was nor is waiting for a handler.
theorem Owned.put {old new : Session} (owned : Owned p) (found : p.sessions[j]? = some old)
    (before : ∀ i, old.phase ≠ .chatting i) (after : ∀ i, new.phase ≠ .chatting i) (same : chats new = chats old) :
    Owned (p.put j new) := by
  obtain ⟨once,attended,unended⟩ := owned
  refine ⟨once_set once found (same.trans (List.append_nil _).symm) (List.append_nil _).symm,
    fun i thread known running => waiting_set found (before i) (attended i thread known running) new,?_⟩
  · intro k session i known chatting
    by_cases own : j = k
    · subst own
      cases Option.some.inj ((List.getElem?_set_self (List.getElem?_eq_some_iff.mp found).1).symm.trans known)
      exact absurd chatting (after i)
    · exact unended k session i ((List.getElem?_set_ne own).symm.trans known) chatting

theorem again_unchatting (keepAlive : Bool) (i : Nat) : again keepAlive ≠ .chatting i := by
  cases keepAlive <;> nofun

theorem phaseOf_chatting {w : Gateways} (found : w.threads[call]? = some thread) :
    phaseOf w call = .chatting i ↔ i = call ∧ exitOf thread = none := by
  unfold phaseOf
  rw [found,Option.bind_some]
  cases exitOf thread with
  | none =>
    constructor
    · intro same
      exact ⟨(Phase.chatting.inj same).symm,rfl⟩
    · rintro ⟨rfl,-⟩
      rfl
  | some exit => exact ⟨fun same => absurd same (again_unchatting _ i),fun both => nomatch both.2⟩

-- The handlers and the sessions, after one session has let its handler run.
theorem settled_owned {sessions : List Session} {w : Gateways} {old : Session} (found : sessions[j]? = some old)
    (began : w.threads[call]? = some thread) (free : ∀ i, i ≠ call → old.phase ≠ .chatting i)
    (attended : ∀ (i : Nat) other, i ≠ call → w.threads[i]? = some other → exitOf other = none → Waiting sessions i)
    (unended : ∀ (k : Nat) session i, k ≠ j → sessions[k]? = some session → session.phase = .chatting i →
      w.threads[i]?.map exitOf = some none) (port : Port) (trace : List Seen) :
    (∀ (i : Nat) other, w.threads[i]? = some other → exitOf other = none →
      Waiting (sessions.set j ⟨port,phaseOf w call,trace⟩) i) ∧
    ∀ (k : Nat) session i, (sessions.set j ⟨port,phaseOf w call,trace⟩)[k]? = some session → session.phase = .chatting i →
      w.threads[i]?.map exitOf = some none := by
  have own := List.getElem?_set_self (a := ⟨port,phaseOf w call,trace⟩) (List.getElem?_eq_some_iff.mp found).1
  constructor
  · intro i other known running
    by_cases same : i = call
    · subst same
      cases Option.some.inj (began.symm.trans known)
      exact ⟨j,_,own,(phaseOf_chatting began).mpr ⟨rfl,running⟩⟩
    · exact waiting_set found (free i same) (attended i other same known running) _
  · intro k session i known chatting
    by_cases same : k = j
    · subst same
      cases Option.some.inj (own.symm.trans known)
      obtain ⟨rfl,running⟩ := (phaseOf_chatting began).mp chatting
      rw [began,Option.map_some,running]
    · exact unended k session i same ((List.getElem?_set_ne (Ne.symm same)).symm.trans known) chatting

-- Two connections never wait for the same handler.
theorem waiting_alone (path : Reachable setup meets p) (once : (p.sessions.flatMap chats).Perm (List.range n))
    {k : Nat} {one two : Session} (first : p.sessions[j]? = some one) (second : p.sessions[k]? = some two)
    (same : one.phase = .chatting i) (also : two.phase = .chatting i) : j = k := by
  obtain ⟨actions,ran⟩ := reached_ran path
  have begun : ∀ session ∈ p.sessions, session.phase = .chatting i → i ∈ chats session := by
    intro session member chatting
    have talk := reachable_talk path session member
    obtain ⟨k,found⟩ := List.getElem?_of_mem member
    have quiet := (ran_scraped ran).2 k session found
    obtain ⟨port,phase,trace⟩ := session
    subst chatting
    cases port with
    | gateway =>
      obtain ⟨past,req,thread,rfl,-⟩ := talk rfl
      simp [chats]
    | metrics => cases quiet rfl
  have apart := (List.nodup_flatMap.mp (once.nodup_iff.mpr List.nodup_range)).2
  obtain ⟨inside,rfl⟩ := List.getElem?_eq_some_iff.mp first
  obtain ⟨within,rfl⟩ := List.getElem?_eq_some_iff.mp second
  have mine := begun _ (List.getElem_mem inside) same
  have yours := begun _ (List.getElem_mem within) also
  rcases Nat.lt_trichotomy j k with less | equal | less
  · exact (List.pairwise_iff_getElem.mp apart j k inside within less mine yours).elim
  · exact equal
  · exact (List.pairwise_iff_getElem.mp apart k j within inside less yours mine).elim

theorem chatted_owned (owned : Owned p) (found : p.sessions[j]? = some ⟨.gateway,.reading,trace⟩) (request : Request)
    (req : HttpRequest) :
    Owned (settleChat {p with gateways := spawned setup.env p.gateways request,inFlight := p.inFlight + 1} j
      ⟨.gateway,.reading,trace ++ [.read (some req)] ++ [.chatted p.gateways.threads.length]⟩ p.gateways.threads.length) := by
  obtain ⟨once,attended,unended⟩ := owned
  obtain ⟨thread,threads,-⟩ := spawned_last setup.env p.gateways request
  have older : ∀ (i : Nat), i < p.gateways.threads.length →
      (spawned setup.env p.gateways request).threads[i]? = p.gateways.threads[i]? := by
    intro i inside
    rw [threads,List.getElem?_append_left inside]
  have settled := settled_owned found (by rw [threads]; exact List.getElem?_concat_length) nofun
    (fun i other differs known running => by
      have bound := (List.getElem?_eq_some_iff.mp known).1
      rw [threads,List.length_append,List.length_singleton] at bound
      exact attended i other ((older i (by omega)).symm.trans known) running)
    (fun k session i _ known chatting => by
      have before := unended k session i known chatting
      obtain ⟨other,there,-⟩ := Option.map_eq_some_iff.mp before
      rw [older i (List.getElem?_eq_some_iff.mp there).1]
      exact before) .gateway (trace ++ [.read (some req)] ++ [.chatted p.gateways.threads.length])
  refine ⟨?_,by rw [settleChat_sessions,settleChat_gateways]; exact settled.1,
    by rw [settleChat_sessions,settleChat_gateways]; exact settled.2⟩
  rw [settleChat_sessions,settleChat_gateways]
  refine once_set once found ?_ (by rw [threads,List.length_append,List.length_singleton,List.range_succ])
  simp [chats]

theorem resumed_owned {gateways : Gateways} (path : Reachable setup meets p) (owned : Owned p)
    (found : p.sessions[j]? = some ⟨port,.chatting call,trace⟩)
    (advanced : advance (host setup.env) p.gateways (.resume call answers) = some gateways) :
    Owned (settleChat {p with gateways} j ⟨port,.chatting call,trace⟩ call) := by
  obtain ⟨once,attended,unended⟩ := owned
  obtain ⟨old,new,waits,unfinished,-,threads,began⟩ := resume_cases advanced
  have others : ∀ (i : Nat), i ≠ call → gateways.threads[i]? = p.gateways.threads[i]? := by
    intro i differs
    rw [threads,List.getElem?_set_ne (Ne.symm differs)]
  have settled := settled_owned found began (fun i differs same => differs (Phase.chatting.inj same).symm)
    (fun i other differs known running => attended i other ((others i differs).symm.trans known) running)
    (fun k session i apart known chatting => by
      have differs : i ≠ call := by
        rintro rfl
        exact apart (waiting_alone path once known found chatting rfl)
      rw [others i differs]
      exact unended k session i known chatting) port trace
  refine ⟨?_,by rw [settleChat_sessions,settleChat_gateways]; exact settled.1,
    by rw [settleChat_sessions,settleChat_gateways]; exact settled.2⟩
  rw [settleChat_sessions,settleChat_gateways]
  refine once_set once found (List.append_nil _).symm ?_
  change List.range gateways.threads.length = _
  rw [threads,List.length_set,List.append_nil]

theorem moved_owned (path : Reachable setup meets p) (owned : Owned p) (moved : Moved setup p action q) : Owned q := by
  cases moved with
  | accepted =>
    obtain ⟨once,attended,unended⟩ := owned
    refine ⟨?_,fun i thread known running => ?_,fun j session i known chatting => ?_⟩
    · simpa [chats,connected] using once
    · obtain ⟨k,session,there,chatting⟩ := attended i thread known running
      exact ⟨k,session,(List.getElem?_append_left (List.getElem?_eq_some_iff.mp there).1).trans there,chatting⟩
    · rcases List.mem_append.mp (List.mem_of_getElem? known) with old | new
      · obtain ⟨k,there⟩ := List.getElem?_of_mem old
        exact unended k session i there chatting
      · cases List.mem_singleton.mp new
        cases chatting
  | lost found | scraped found | threw found | replied found => exact owned.put found nofun nofun (by simp [chats])
  | wrote found => exact owned.put found nofun (again_unchatting _) (by simp [chats])
  | chatted request found => exact chatted_owned owned found request _
  | resumed _ found advanced => exact resumed_owned path owned found advanced
  | probing | probed | woke | ticked => exact owned.congr rfl rfl
  | signalled | polled => exact owned.congr (poll_sessions _ _) (by rw [poll_gateways])

theorem reachable_owned (path : Reachable setup meets p) : Owned p := by
  induction path with
  | initial => exact ⟨List.Perm.nil,nofun,nofun⟩
  | step before _ ran ih => exact moved_owned before ih (step_moved ran).2

-- Every chat handler was begun by one connection, once; it has not ended exactly
-- as long as that connection waits for it, and no two wait for the same one.
theorem handlers_owned (path : Reachable setup meets p) :
    (p.sessions.flatMap chats).Perm (List.range p.gateways.threads.length) ∧
    (∀ (i : Nat) thread, p.gateways.threads[i]? = some thread → (exitOf thread = none ↔ Waiting p.sessions i)) ∧
    ∀ (i j k : Nat) one two, p.sessions[j]? = some one → p.sessions[k]? = some two → one.phase = .chatting i →
      two.phase = .chatting i → j = k := by
  obtain ⟨once,attended,unended⟩ := reachable_owned path
  refine ⟨once,fun i thread known => ⟨attended i thread known,?_⟩,fun i j k one two => waiting_alone path once⟩
  rintro ⟨j,session,there,chatting⟩
  have still := unended j session i there chatting
  rw [known,Option.map_some] at still
  exact Option.some.inj still

theorem handlers_owned_busy : ∃ p, Reachable sampleSetup Any p ∧ p.gateways.threads.length = 1 ∧
    (p.sessions.flatMap chats).Perm [0] := by
  obtain ⟨p,path,count⟩ : ∃ p, Reachable sampleSetup Any p ∧ p.gateways.threads.length = 1 :=
    reached_shown busy _ (by decide +kernel)
  have owned := (handlers_owned path).1
  rw [count] at owned
  exact ⟨p,path,count,owned⟩

end Ownership
end Kvmux.Connection
