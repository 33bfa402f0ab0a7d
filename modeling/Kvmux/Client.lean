import Mathlib.Data.List.Basic
import Kvmux.Exchange
import Kvmux.Ledger
import Kvmux.SseCodec

namespace Kvmux.Client
open Coroutine SseParser

structure UnaryResult where
  connected : Bool := false
  httpStatus : Nat := 0
  body : Bytes := []
  deriving DecidableEq, Repr

def postChat (b : Nat) (requestBody : Bytes) : Prog UnaryResult := do
  match ← suspend (.connect b) with
  | .error _ => pure {}
  | .ok _ =>
    match ← suspend (.writeRequest b requestBody) with
    | .error _ => pure {connected := true}
    | .ok _ =>
      match ← suspend (.readResponse b) with
      | .error _ => pure {connected := true}
      | .ok received => pure {connected := true,httpStatus := received.status,body := received.body}

structure StreamResult where
  connected : Bool := false
  anyFrameForwarded : Bool := false
  httpStatus : Nat := 0
  errorBody : Bytes := []
  upstreamAborted : Bool := false
  timedOut : Bool := false
  deriving DecidableEq, Repr

-- The error body is read to its end, or as far as it goes.
def readErrorBody (b : Nat) : List Read → Bool → Bytes → Prog Bytes
  | _,true,body => pure body
  | [],false,body => do
    suspend (.readSome b)
    pure body
  | read :: rest,false,body => do
    suspend (.readSome b)
    match read.code with
    | .none | .needBuffer => readErrorBody b rest read.done (body ++ read.block)
    | _ => pure (body ++ read.block)

section Streaming
variable {σ : Type} (sink : σ → SseEvent → Prog (Bool × σ))

-- The locals of the body loop, with whatever the sink captured.
structure Flow (σ : Type) where
  parser : Parser := fresh
  sinkWantsStop : Bool := false
  sawDone : Bool := false
  anyFrameForwarded : Bool := false
  timedOut : Bool := false
  captured : σ

def drainPending : List SseEvent → Flow σ → Prog (Flow σ)
  | [],flow => pure flow
  | ev :: rest,flow => do
    let (keep,captured) ← sink flow.captured ev
    let flow := {flow with sawDone := flow.sawDone || ev.isDone,anyFrameForwarded := true,captured}
    if keep then drainPending rest flow else pure {flow with sinkWantsStop := true}

def readBody (b : Nat) : List Read → Bool → Flow σ → Prog (Flow σ)
  | [],done,flow => do
    if done || flow.sinkWantsStop then pure flow else
    suspend (.readSome b)
    pure {flow with timedOut := true}
  | read :: rest,done,flow => do
    if done || flow.sinkWantsStop then pure flow else
    suspend (.readSome b)
    let fed := feed flow.parser read.block
    let flow ← drainPending sink fed.1 {flow with parser := fed.2}
    match read.code with
    | .none | .needBuffer => readBody b rest read.done flow
    | .operationAborted | .timeout => pure {flow with timedOut := true}
    | .failed => pure flow

-- A trailing frame that was complete but not terminated.
def flushTail (flow : Flow σ) : Prog (Flow σ) :=
  if flow.sinkWantsStop then pure flow
  else drainPending sink (flush flow.parser).1 {flow with parser := (flush flow.parser).2.1}

def streamBody (b : Nat) (head : Head) (captured : σ) : Prog (StreamResult × σ) := do
  let flow ← readBody sink b head.reads head.done {captured}
  let flow ← flushTail sink flow
  pure ({
    connected := true
    httpStatus := head.status
    anyFrameForwarded := flow.anyFrameForwarded
    timedOut := flow.timedOut
    upstreamAborted := !flow.sawDone && !flow.sinkWantsStop && !flow.timedOut},flow.captured)

def streamChat (b : Nat) (requestBody : Bytes) (captured : σ) : Prog (StreamResult × σ) := do
  match ← suspend (.connect b) with
  | .error _ => pure ({},captured)
  | .ok _ =>
    match ← suspend (.writeRequest b requestBody) with
    | .error _ => pure ({connected := true,upstreamAborted := true},captured)
    | .ok _ =>
      match ← suspend (.readHeader b) with
      | .error _ => pure ({connected := true,upstreamAborted := true},captured)
      | .ok head =>
        if head.status ≥ 400 then do
          let errorBody ← readErrorBody b head.reads head.done []
          pure ({connected := true,httpStatus := head.status,errorBody},captured)
        else streamBody sink b head captured

inductive Upstream (b : Nat) : Wait → Prop where
  | connect : Upstream b (.connect b)
  | writeRequest : Upstream b (.writeRequest b body)
  | readHeader : Upstream b (.readHeader b)
  | readSome : Upstream b (.readSome b)
  | readResponse : Upstream b (.readResponse b)

-- A ledger that ignores the upstream side sees of a stream only what its sink does.
variable {L : Type} {D : Ledger Op.Reply Wait.Answer L} {J : L → σ → Prop} {sink}

theorem drainPending_keeps (sinks : ∀ l s ev, J l s → Keeps D l (sink s ev) fun l out => J l out.2)
    (pending : List SseEvent) (flow : Flow σ) (start : J l flow.captured) :
    Keeps D l (drainPending sink pending flow) fun l flow => J l flow.captured := by
  induction pending generalizing l flow with
  | nil => exact start
  | cons ev rest ih =>
    unfold drainPending
    refine (sinks l flow.captured ev start).bind ?_
    rintro l ⟨keep,captured⟩ kept
    cases keep with
    | true => exact ih _ kept
    | false => exact kept

theorem readBody_keeps (ignores : ∀ l point answer, Upstream b point → D.book l (.got point answer) = some l)
    (sinks : ∀ l s ev, J l s → Keeps D l (sink s ev) fun l out => J l out.2)
    (reads : List Read) (done : Bool) (flow : Flow σ) (start : J l flow.captured) :
    Keeps D l (readBody sink b reads done flow) fun l flow => J l flow.captured := by
  induction reads generalizing l done flow with
  | nil =>
    unfold readBody
    split
    · exact start
    · exact .wait (fun _ => ignores _ _ _ .readSome) fun _ _ => start
  | cons read rest ih =>
    unfold readBody
    split
    · exact start
    · refine .wait (fun _ => ignores _ _ _ .readSome) fun _ _ => ?_
      apply Keeps.bind
      · exact drainPending_keeps sinks _ _ start
      · intro l flow kept
        split
        · exact ih _ _ kept
        · exact ih _ _ kept
        · exact kept
        · exact kept
        · exact kept

theorem flushTail_keeps (sinks : ∀ l s ev, J l s → Keeps D l (sink s ev) fun l out => J l out.2)
    (flow : Flow σ) (start : J l flow.captured) :
    Keeps D l (flushTail sink flow) fun l flow => J l flow.captured := by
  unfold flushTail
  split
  · exact start
  · exact drainPending_keeps sinks _ _ start

theorem streamBody_keeps (ignores : ∀ l point answer, Upstream b point → D.book l (.got point answer) = some l)
    (sinks : ∀ l s ev, J l s → Keeps D l (sink s ev) fun l out => J l out.2)
    (head : Head) (captured : σ) (start : J l captured) :
    Keeps D l (streamBody sink b head captured) fun l out => J l out.2 := by
  unfold streamBody
  refine (readBody_keeps ignores sinks _ _ _ start).bind ?_
  intro l flow kept
  refine (flushTail_keeps sinks flow kept).bind ?_
  exact fun l flow kept => kept

theorem readErrorBody_keeps (ignores : ∀ l point answer, Upstream b point → D.book l (.got point answer) = some l)
    (reads : List Read) (done : Bool) (body : Bytes) (l : L) :
    Keeps D l (readErrorBody b reads done body) fun after _ => after = l := by
  induction reads generalizing done body with
  | nil =>
    cases done with
    | true => rfl
    | false => exact .wait (fun _ => ignores _ _ _ .readSome) fun _ _ => rfl
  | cons read rest ih =>
    cases done with
    | true => rfl
    | false =>
      refine .wait (fun _ => ignores _ _ _ .readSome) fun _ _ => ?_
      cases read.code with
      | none => exact ih _ _
      | needBuffer => exact ih _ _
      | operationAborted => rfl
      | timeout => rfl
      | failed => rfl

theorem streamChat_keeps (ignores : ∀ l point answer, Upstream b point → D.book l (.got point answer) = some l)
    (sinks : ∀ l s ev, J l s → Keeps D l (sink s ev) fun l out => J l out.2)
    (requestBody : Bytes) (captured : σ) (start : J l captured) :
    Keeps D l (streamChat sink b requestBody captured) fun l out => J l out.2 := by
  unfold streamChat
  refine .wait (fun _ => ignores _ _ _ .connect) fun connected _ => ?_
  cases connected with
  | error fault => exact start
  | ok _ =>
    refine .wait (fun _ => ignores _ _ _ .writeRequest) fun written _ => ?_
    cases written with
    | error fault => exact start
    | ok _ =>
      refine .wait (fun _ => ignores _ _ _ .readHeader) fun answered _ => ?_
      cases answered with
      | error fault => exact start
      | ok head =>
        dsimp only
        split
        · refine (readErrorBody_keeps ignores _ _ _ l).bind ?_
          rintro _ errorBody rfl
          exact start
        · exact streamBody_keeps ignores sinks head captured start

section Confinement
variable {acts : Op → Prop} {waits : Wait → Prop} {b : Nat}

theorem drainPending_confined (sinks : ∀ s ev, Confined acts waits (sink s ev)) (pending : List SseEvent) (flow : Flow σ) :
    Confined acts waits (drainPending sink pending flow) := by
  induction pending generalizing flow with
  | nil => trivial
  | cons ev rest ih =>
    unfold drainPending
    refine (sinks flow.captured ev).bind ?_
    rintro ⟨keep,captured⟩
    cases keep with
    | true => exact ih _
    | false => trivial

theorem readBody_confined (reading : waits (.readSome b)) (sinks : ∀ s ev, Confined acts waits (sink s ev)) (reads : List Read)
    (done : Bool) (flow : Flow σ) : Confined acts waits (readBody sink b reads done flow) := by
  induction reads generalizing done flow with
  | nil =>
    unfold readBody
    split
    · trivial
    · exact Confined.await reading fun _ => trivial
  | cons read rest ih =>
    unfold readBody
    split
    · trivial
    · refine Confined.await reading fun _ => (drainPending_confined sinks _ _).bind fun flow => ?_
      split
      · exact ih _ _
      · exact ih _ _
      · trivial
      · trivial
      · trivial

theorem readErrorBody_confined (reading : waits (.readSome b)) (reads : List Read) (done : Bool) (body : Bytes) :
    Confined acts waits (readErrorBody b reads done body) := by
  induction reads generalizing done body with
  | nil =>
    cases done with
    | true => trivial
    | false => exact Confined.await reading fun _ => trivial
  | cons read rest ih =>
    cases done with
    | true => trivial
    | false =>
      unfold readErrorBody
      refine Confined.await reading fun _ => ?_
      split
      · exact ih _ _
      · exact ih _ _
      · trivial

-- A stream waits for its backend, and for whatever the sink waits for.
theorem streamChat_confined (exchange : ∀ point, Upstream b point → (∀ body, point = .writeRequest b body → body = requestBody) →
      waits point) (sinks : ∀ s ev, Confined acts waits (sink s ev)) (captured : σ) :
    Confined acts waits (streamChat sink b requestBody captured) := by
  have reading : waits (.readSome b) := exchange _ .readSome nofun
  unfold streamChat
  refine Confined.await (exchange _ .connect nofun) fun connected => ?_
  cases connected with
  | error fault => trivial
  | ok _ =>
    refine Confined.await (exchange _ .writeRequest fun body same => (Wait.writeRequest.inj same).2.symm) fun written => ?_
    cases written with
    | error fault => trivial
    | ok _ =>
      refine Confined.await (exchange _ .readHeader nofun) fun answer => ?_
      cases answer with
      | error fault => trivial
      | ok head =>
        dsimp only
        split
        · exact (readErrorBody_confined reading _ _ _).bind fun _ => trivial
        · refine (readBody_confined reading sinks _ _ _).bind fun flow => ?_
          refine Confined.bind ?_ fun _ => trivial
          unfold flushTail
          split
          · trivial
          · exact drainPending_confined sinks _ _

theorem postChat_confined (exchange : ∀ point, Upstream b point → (∀ body, point = .writeRequest b body → body = requestBody) →
    waits point) : Confined acts waits (postChat b requestBody) := by
  refine Confined.await (exchange _ .connect nofun) fun connected => ?_
  cases connected with
  | error fault => trivial
  | ok _ =>
    refine Confined.await (exchange _ .writeRequest fun body same => (Wait.writeRequest.inj same).2.symm) fun written => ?_
    cases written with
    | error fault => trivial
    | ok _ =>
      refine Confined.await (exchange _ .readResponse nofun) fun received => ?_
      cases received <;> trivial

end Confinement

end Streaming
end Kvmux.Client
