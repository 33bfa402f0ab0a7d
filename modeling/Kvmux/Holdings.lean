import Mathlib.Data.List.Basic
import Kvmux.Gateway
import Kvmux.Ledger

namespace Kvmux.Holdings
open Coroutine CircuitBreaker GlobalGate Client Gateway

-- What one request holds of the gateway: its place at the gate, the breaker
-- decision it has still to report, its backend slot, and whether the client was
-- lost in the middle of a stream.
structure Holding where
  phase : Phase := .idle
  owed : Option (Nat × Bool) := none
  slot : Option Nat := none
  lost : Bool := false
  deriving DecidableEq, Repr

def book (h : Holding) : Event Op.Reply Wait.Answer → Option Holding
  | .did .enterGate entry => if h.phase = .idle then some {h with phase := Entry.phase entry} else none
  | .did .resumeGate status => if h.phase = .waiting then some {h with phase := AdmitStatus.phase status} else none
  | .did .releaseGate _ => if h.phase = .holding ∧ h.slot = none then some {h with phase := .gone} else none
  | .did (.allowRequest b) dec =>
    if h.phase = .holding ∧ h.owed = none then
      some {h with owed := if Decision.allowed dec then some (b,Decision.isProbe dec) else none}
    else none
  | .did (.report b _ isProbe) _ => if h.owed = some (b,isProbe) then some {h with owed := none} else none
  | .did (.tryAcquire b) taken =>
    if h.phase = .holding ∧ h.slot = none then some {h with slot := if taken = true then some b else none} else none
  | .did (.releaseSlot b) _ => if h.slot = some b then some {h with slot := none} else none
  | .got (.writeChunk .sink _) delivered => some {h with lost := h.lost || !delivered}
  | _ => some h

def ledger : Ledger Op.Reply Wait.Answer Holding := ⟨fun _ _ => True,book⟩

-- An entry that was made was permitted.
theorem entered {permitted : Prop} [Decidable permitted] {new after : Holding}
    (booked : (if permitted then some new else none) = some after) : permitted ∧ after = new := by
  split at booked
  · rename_i holds
    exact ⟨holds,(Option.some.inj booked).symm⟩
  · cases booked

-- Operations and suspensions that change nothing a request holds.
def Neutral : Op → Prop
  | .now | .observedHealth _ | .load _ | .nextCursor | .record _ | .publishAdmissionGauges => True
  | _ => False

def Calm : Wait → Prop
  | .writeChunk .sink _ => False
  | _ => True

theorem book_neutral (h : Holding) (op : Op) (reply : op.Reply) (neutral : Neutral op) :
    book h (.did op reply) = some h := by
  cases op <;> first | exact neutral.elim | rfl

theorem book_calm (h : Holding) (point : Wait) (answer : point.Answer) (calm : Calm point) :
    book h (.got point answer) = some h := by
  cases point with
  | writeChunk site chunk =>
    cases site with
    | sink => exact calm.elim
    | gateway => rfl
  | _ => rfl

abbrev Quiet {α : Type} (p : Prog α) : Prop := Confined Neutral Calm p

theorem Quiet.keeps {p : Prog α} (quiet : Quiet p) (h : Holding) : Keeps ledger h p fun after _ => after = h :=
  Confined.keeps quiet ledger book_neutral book_calm

theorem quiet_bind {p : Prog α} {rest : α → Prog β} (quiet : Quiet p)
    (kept : ∀ value, Keeps ledger h (rest value) post) : Keeps ledger h (p >>= rest) post := by
  apply Keeps.bind (quiet.keeps h)
  rintro _ value rfl
  exact kept value

theorem looking_quiet {p : Prog α} (looking : Looking p) : Quiet p := by
  apply looking.mono
  · intro op passive
    cases op <;> first | exact passive.elim | trivial
  · exact fun _ never => never.elim

theorem quiet_act (op : Op) (neutral : Neutral op) : Quiet (act op) := ⟨neutral,fun _ => trivial⟩

theorem quiet_suspend (point : Wait) (calm : Calm point) : Quiet (suspend point) := ⟨calm,fun _ => trivial⟩

theorem respond_quiet (labels : Metrics.Labels) (keepAlive : Bool) (status : Nat) (body : Option Bytes) :
    Quiet (respond labels keepAlive status body) := by
  cases body with
  | none => trivial
  | some body =>
    refine ⟨trivial,fun delivered => ?_⟩
    cases delivered <;> trivial

theorem begin_quiet (w : SseWriter) : Quiet w.begin := by
  unfold SseWriter.begin
  split
  · trivial
  · refine ⟨trivial,fun delivered => ?_⟩
    cases delivered <;> trivial

theorem finish_quiet (w : SseWriter) : Quiet w.finish := by
  unfold SseWriter.finish
  split
  · trivial
  · exact quiet_suspend _ trivial

-- Where a sink leaves the request: nothing it holds has changed, and a client
-- that is gone after the header went out has been noted as lost.
def Sinking (h after : Holding) (s : SinkState) : Prop :=
  after = {h with lost := after.lost} ∧ (s.headerStarted = true → s.downstreamDead = true → after.lost = true)

theorem forward_keeps (blabels : Metrics.Labels) (tAdmitted : Int) (s : SinkState) (ev : SseParser.SseEvent)
    (same : after = {h with lost := after.lost}) (live : s.downstreamDead = false) :
    Keeps ledger after (forward blabels tAdmitted s ev) fun after out => Sinking h after out.2 := by
  unfold forward
  apply quiet_bind (quiet_act .now trivial)
  intro tNow
  apply quiet_bind (looking_quiet (observeFrame_looking blabels tAdmitted tNow s ev))
  intro _
  refine .wait (fun delivered => rfl) fun delivered _ => ?_
  cases delivered with
  | true => exact ⟨by rw [same],fun _ dead => by simp [live] at dead⟩
  | false => exact ⟨by rw [same],fun _ _ => by simp⟩

theorem sink_keeps (blabels : Metrics.Labels) (tAdmitted : Int) (after : Holding) (s : SinkState) (ev : SseParser.SseEvent)
    (held : Sinking h after s) :
    Keeps ledger after (sink blabels tAdmitted s ev) fun after out => Sinking h after out.2 := by
  unfold sink
  split
  · exact held
  · rename_i live
    have live : s.downstreamDead = false := by simpa using live
    split
    · exact forward_keeps blabels tAdmitted s ev held.1 live
    · rename_i unsent
      apply quiet_bind (begin_quiet s.writer)
      rintro ⟨sent,writer⟩
      cases sent with
      | true => exact forward_keeps blabels tAdmitted _ ev held.1 live
      | false => exact ⟨held.1,fun started => absurd started unsent⟩

-- An attempt settles the decision it was made on, unless the client is lost
-- while its stream runs; then it also ends the request.
def Settles (h after : Holding) (verdict : Verdict) : Prop :=
  after.phase = h.phase ∧ after.slot = h.slot ∧
    (after.owed = none ∨ after.lost = true ∧ verdict ≠ .next)

theorem answer_keeps (labels : Metrics.Labels) (keepAlive : Bool) (status : Nat) (body : Option Bytes)
    (settled : after.phase = h.phase ∧ after.slot = h.slot ∧ after.owed = none) :
    Keeps ledger after (answer labels keepAlive status body) (Settles h) := by
  unfold answer
  apply quiet_bind (respond_quiet labels keepAlive status body)
  exact fun outcome => ⟨settled.1,settled.2.1,.inl settled.2.2⟩

theorem report_keeps {rest : Unit → Prog α} (owed : h.owed = some (b,isProbe))
    (kept : Keeps ledger {h with owed := none} (rest ()) post) :
    Keeps ledger h (act (.report b report isProbe) >>= rest) post :=
  .act (fun _ => by simp [ledger,book,owed]) fun _ _ => kept

theorem noteFailure_keeps {rest : Unit → Prog α} (owed : h.owed = some (b,isProbe))
    (kept : Keeps ledger {h with owed := none} (rest ()) post) :
    Keeps ledger h (noteFailure b isProbe labels >>= rest) post := by
  unfold noteFailure
  refine report_keeps owed ?_
  exact quiet_bind (quiet_act (.record _) trivial) fun _ => kept

theorem postChat_quiet (b : Nat) (requestBody : Bytes) : Quiet (postChat b requestBody) := by
  refine ⟨trivial,fun connected => ?_⟩
  cases connected with
  | error fault => trivial
  | ok _ =>
    refine ⟨trivial,fun written => ?_⟩
    cases written with
    | error fault => trivial
    | ok _ =>
      refine ⟨trivial,fun received => ?_⟩
      cases received <;> trivial

theorem unaryAttempt_keeps (env : Env) (job : Job) (labels : Metrics.Labels) (more : Bool) (owed : h.owed = some (b,isProbe)) :
    Keeps ledger h (unaryAttempt env job labels b isProbe more) (Settles h) := by
  unfold unaryAttempt
  apply quiet_bind (postChat_quiet b job.upstreamText)
  intro ur
  split
  · exact noteFailure_keeps owed ⟨rfl,rfl,.inl rfl⟩
  · split
    · refine noteFailure_keeps owed ?_
      split
      · exact ⟨rfl,rfl,.inl rfl⟩
      · exact answer_keeps _ _ _ _ ⟨rfl,rfl,rfl⟩
    · refine report_keeps owed ?_
      split
      · exact answer_keeps _ _ _ _ ⟨rfl,rfl,rfl⟩
      · exact answer_keeps _ _ _ _ ⟨rfl,rfl,rfl⟩

theorem classifyUnsent_keeps (env : Env) (job : Job) (labels : Metrics.Labels) (more : Bool) (sr : StreamResult)
    (writer : SseWriter) (owed : h.owed = some (b,isProbe)) :
    Keeps ledger h (classifyUnsent env job labels b isProbe more sr writer) (Settles h) := by
  unfold classifyUnsent
  split
  · refine noteFailure_keeps owed ?_
    split
    · exact ⟨rfl,rfl,.inl rfl⟩
    · split
      · exact answer_keeps _ _ _ _ ⟨rfl,rfl,rfl⟩
      · split
        · exact answer_keeps _ _ _ _ ⟨rfl,rfl,rfl⟩
        · exact answer_keeps _ _ _ _ ⟨rfl,rfl,rfl⟩
  · refine report_keeps owed ?_
    apply quiet_bind (begin_quiet writer)
    rintro ⟨sent,writer⟩
    dsimp only
    split
    · exact ⟨rfl,rfl,.inl rfl⟩
    · apply quiet_bind (quiet_suspend (.writeChunk .gateway _) trivial)
      intro delivered
      split
      · exact ⟨rfl,rfl,.inl rfl⟩
      · apply quiet_bind (finish_quiet writer)
        intro ended
        split <;> exact ⟨rfl,rfl,.inl rfl⟩

theorem classifySent_keeps (env : Env) (job : Job) (labels : Metrics.Labels) (sr : StreamResult) (s : SinkState)
    (owed : h.owed = some (b,isProbe)) (lost : s.downstreamDead = true → h.lost = true) :
    Keeps ledger h (classifySent env job labels b isProbe sr s) (Settles h) := by
  unfold classifySent
  split
  · rename_i dead
    exact ⟨rfl,rfl,.inr ⟨lost dead,by simp [finished]⟩⟩
  · split
    · refine noteFailure_keeps owed ?_
      dsimp only
      split
      · exact ⟨rfl,rfl,.inl rfl⟩
      · apply quiet_bind (quiet_suspend (.writeChunk .gateway _) trivial)
        intro delivered
        split
        · apply quiet_bind (finish_quiet s.writer)
          exact fun _ => ⟨rfl,rfl,.inl rfl⟩
        · exact ⟨rfl,rfl,.inl rfl⟩
    · refine report_keeps owed ?_
      apply quiet_bind (finish_quiet s.writer)
      intro ended
      split <;> exact ⟨rfl,rfl,.inl rfl⟩

theorem upstream_ignored (l : Holding) (point : Wait) (answer : point.Answer) (upstream : Upstream b point) :
    ledger.book l (.got point answer) = some l := by
  cases upstream <;> rfl

theorem streamAttempt_keeps (env : Env) (job : Job) (labels : Metrics.Labels) (more : Bool) (owed : h.owed = some (b,isProbe)) :
    Keeps ledger h (streamAttempt env job labels b isProbe more) (Settles h) := by
  unfold streamAttempt
  apply Keeps.bind
  · exact streamChat_keeps (J := Sinking h) upstream_ignored (fun l s ev => sink_keeps labels job.tAdmitted l s ev)
      job.upstreamText _ ⟨rfl,by simp⟩
  · rintro after ⟨sr,s⟩ ⟨same,lost⟩
    have settles : ∀ final verdict, Settles after final verdict → Settles h final verdict := by
      intro final verdict settled
      rw [same] at settled
      exact settled
    have owed : after.owed = some (b,isProbe) := by rw [same]; exact owed
    dsimp only
    split
    · exact (classifyUnsent_keeps env job labels more sr s.writer owed).mono settles
    · rename_i started
      exact (classifySent_keeps env job labels sr s owed (lost (by simpa using started))).mono settles

theorem attempt_keeps (env : Env) (job : Job) (labels : Metrics.Labels) (more : Bool) (owed : h.owed = some (b,isProbe)) :
    Keeps ledger h (attempt env job labels b isProbe more) (Settles h) := by
  unfold attempt
  split
  · exact streamAttempt_keeps env job labels more owed
  · exact unaryAttempt_keeps env job labels more owed

theorem allowRequest_keeps {rest : Decision → Prog α} (phase : h.phase = .holding) (owed : h.owed = none)
    (denied : ∀ dec, dec.allowed = false → Keeps ledger h (rest dec) post)
    (allowed : ∀ dec, dec.allowed = true → Keeps ledger {h with owed := some (b,dec.isProbe)} (rest dec) post) :
    Keeps ledger h (act (.allowRequest b) >>= rest) post := by
  intro dec _
  cases granted : Decision.allowed dec with
  | true => exact ⟨_,by simp [ledger,book,phase,owed,granted],allowed dec granted⟩
  | false =>
    refine ⟨h,?_,denied dec granted⟩
    cases h
    simp_all [ledger,book]

theorem tryAcquire_keeps {rest : Bool → Prog α} (phase : h.phase = .holding) (slot : h.slot = none)
    (full : Keeps ledger h (rest false) post) (taken : Keeps ledger {h with slot := some b} (rest true) post) :
    Keeps ledger h (act (.tryAcquire b) >>= rest) post := by
  intro free _
  cases free with
  | true => exact ⟨_,by simp [ledger,book,phase,slot],taken⟩
  | false =>
    refine ⟨h,?_,full⟩
    cases h
    simp_all [ledger,book]

theorem releaseSlot_keeps {rest : Unit → Prog α} (slot : h.slot = some b)
    (kept : Keeps ledger {h with slot := none} (rest ()) post) :
    Keeps ledger h (act (.releaseSlot b) >>= rest) post :=
  .act (fun _ => by simp [ledger,book,slot]) fun _ _ => kept

-- Between attempts a request holds its ticket and nothing else.
def Ticketed (h : Holding) : Prop := h.phase = .holding ∧ h.slot = none ∧ (h.owed = none ∨ h.lost = true)

theorem exhausted_keeps (env : Env) (job : Job) (labels : Metrics.Labels) (ticketed : Ticketed h) :
    Keeps ledger h (exhausted env job labels) fun after _ => Ticketed after := by
  refine ((respond_quiet _ _ _ _).keeps h).mono ?_
  rintro _ outcome rfl
  exact ticketed

theorem walk_keeps (env : Env) (job : Job) (spills : Nat) (order : List Nat) (attempts : Nat) (spillsRecorded : Bool)
    (labels : Metrics.Labels) (phase : h.phase = .holding) (slot : h.slot = none) (owed : h.owed = none) :
    Keeps ledger h (walk env job spills order attempts spillsRecorded labels) fun after _ => Ticketed after := by
  induction order generalizing h attempts spillsRecorded labels with
  | nil => exact exhausted_keeps env job labels ⟨phase,slot,.inl owed⟩
  | cons b rest ih =>
    unfold walk
    split
    · exact exhausted_keeps env job labels ⟨phase,slot,.inl owed⟩
    · dsimp only
      apply quiet_bind (looking_quiet (recordSpills_looking spills spillsRecorded _))
      intro _
      refine allowRequest_keeps phase owed ?_ ?_
      · intro dec denied
        rw [denied]
        exact ih _ _ _ phase slot owed
      · intro dec allowed
        rw [allowed]
        refine tryAcquire_keeps phase slot ?_ ?_
        · exact report_keeps rfl (ih _ _ _ phase slot rfl)
        · apply Keeps.bind (attempt_keeps env job _ _ rfl)
          rintro after verdict ⟨held,taken,settled⟩
          refine releaseSlot_keeps taken ?_
          cases verdict with
          | next =>
            have settled : after.owed = none := by simpa using settled
            exact ih _ _ _ (held.trans phase) rfl settled
          | finish outcome => exact ⟨held.trans phase,rfl,settled.imp id And.left⟩

theorem admitted_keeps (env : Env) (creq : OpenAi.ChatCompletionRequest) (keepAlive : Bool) (labels : Metrics.Labels)
    (phase : h.phase = .holding) (slot : h.slot = none) (owed : h.owed = none) :
    Keeps ledger h (admitted env creq keepAlive labels) fun after _ => Ticketed after := by
  have ticketed : Ticketed h := ⟨phase,slot,.inl owed⟩
  unfold admitted
  apply quiet_bind (quiet_act .now trivial)
  intro tAdmitted
  apply quiet_bind (quiet_act .publishAdmissionGauges trivial)
  intro _
  apply quiet_bind (looking_quiet (snapshot_looking _))
  intro candidates
  split
  · refine ((respond_quiet _ _ _ _).keeps h).mono ?_
    rintro _ outcome rfl
    exact ticketed
  · apply quiet_bind (looking_quiet (orderCandidates_looking env creq candidates))
    intro ordered
    cases ordered with
    | none => exact ticketed
    | some ordered =>
      dsimp only
      split
      · exact ticketed
      · exact walk_keeps env _ _ _ _ _ _ phase slot owed

-- At rest a request holds nothing; only a lost client leaves a decision open.
def AtRest (h : Holding) : Prop :=
  h.phase ≠ .waiting ∧ h.phase ≠ .holding ∧ h.slot = none ∧ (h.owed = none ∨ h.lost = true)

theorem respond_keeps (labels : Metrics.Labels) (keepAlive : Bool) (status : Nat) (body : Option Bytes) (rest : AtRest h) :
    Keeps ledger h (respond labels keepAlive status body) fun after _ => AtRest after := by
  refine ((respond_quiet _ _ _ _).keeps h).mono ?_
  rintro _ outcome rfl
  exact rest

theorem acquire_keeps : Keeps ledger {} acquire fun after out => after = {phase := AdmitStatus.phase out.1} := by
  unfold acquire
  refine .act (fun entry => rfl) fun entry _ => ?_
  cases entry with
  | admitted => rfl
  | queueFull => rfl
  | queued =>
    apply quiet_bind (quiet_act .now trivial)
    intro start
    apply quiet_bind (quiet_suspend .turn trivial)
    intro _
    apply quiet_bind (quiet_act .now trivial)
    intro stop
    exact .act (fun status => rfl) fun status _ => rfl

theorem serve_keeps (env : Env) (creq : OpenAi.ChatCompletionRequest) (keepAlive : Bool) (labels : Metrics.Labels) :
    Keeps ledger {} (serve env creq keepAlive labels) fun after _ => AtRest after := by
  unfold serve
  apply Keeps.bind acquire_keeps
  rintro _ ⟨status,queuedFor⟩ rfl
  apply quiet_bind (quiet_act (.record _) trivial)
  intro _
  cases status with
  | admitted =>
    apply Keeps.bind (admitted_keeps env creq keepAlive labels rfl rfl rfl)
    rintro after outcome ⟨phase,slot,settled⟩
    intro _ _
    exact ⟨{after with phase := .gone},by simp [ledger,book,phase,slot],by simp,by simp,slot,settled⟩
  | queueFull => exact respond_keeps _ _ _ _ ⟨by simp [AdmitStatus.phase],by simp [AdmitStatus.phase],rfl,.inl rfl⟩
  | queueTimeout => exact respond_keeps _ _ _ _ ⟨by simp [AdmitStatus.phase],by simp [AdmitStatus.phase],rfl,.inl rfl⟩

theorem chatBody_keeps (env : Env) (req : Request) (labels : Metrics.Labels) :
    Keeps ledger {} (chatBody env req labels) fun after _ => AtRest after := by
  have idle : AtRest {} := ⟨by simp,by simp,rfl,.inl rfl⟩
  unfold chatBody
  split
  · exact respond_keeps _ _ _ _ idle
  · split
    · split
      · exact idle
      · exact respond_keeps _ _ _ _ idle
    · dsimp only
      split
      · exact respond_keeps _ _ _ _ idle
      · exact serve_keeps env _ _ _

theorem handleChat_keeps (env : Env) (req : Request) :
    Keeps ledger {} (handleChat env req) fun after _ => AtRest after := by
  unfold handleChat
  apply quiet_bind (quiet_act .now trivial)
  intro tArrive
  apply Keeps.bind (chatBody_keeps env req _)
  intro after outcome rest
  apply quiet_bind (looking_quiet (recordTerminal_looking outcome tArrive))
  exact fun _ => rest

end Kvmux.Holdings
