import Mathlib.Data.List.Basic
import Kvmux.Transition

namespace Coroutine

-- A cooperative program. Atomic actions run against shared state and never give
-- up control; a wait is the only place where another program may run. Both kinds
-- of request carry the type of their reply, so a program is a finite tree.
inductive Co {A W : Type} (Reply : A → Type) (Answer : W → Type) (α : Type) where
  | ret (value : α)
  | act (action : A) (next : Reply action → Co Reply Answer α)
  | wait (point : W) (next : Answer point → Co Reply Answer α)

variable {A W : Type} {Reply : A → Type} {Answer : W → Type} {α β γ : Type}

def Co.bind : Co Reply Answer α → (α → Co Reply Answer β) → Co Reply Answer β
  | .ret value,rest => rest value
  | .act action next,rest => .act action (fun reply => (next reply).bind rest)
  | .wait point next,rest => .wait point (fun answer => (next answer).bind rest)

instance : Monad (Co Reply Answer) where
  pure := .ret
  bind := Co.bind

def perform (action : A) : Co Reply Answer (Reply action) := .act action .ret
def await (point : W) : Co Reply Answer (Answer point) := .wait point .ret

@[simp] theorem pure_eq (value : α) : (pure value : Co Reply Answer α) = .ret value := rfl

-- One request of a program together with the reply it received.
inductive Event {A W : Type} (Reply : A → Type) (Answer : W → Type) where
  | did (action : A) (reply : Reply action)
  | got (point : W) (answer : Answer point)

-- Every way a program can proceed, whatever it is told: the replies are not
-- constrained here, so a path covers all shared states and all interleavings.
inductive Path : Co Reply Answer α → List (Event Reply Answer) → Co Reply Answer α → Prop where
  | here : Path p [] p
  | act {next : Reply action → Co Reply Answer α} :
      Path (next reply) trace q → Path (.act action next) (.did action reply :: trace) q
  | wait {next : Answer point → Co Reply Answer α} :
      Path (next answer) trace q → Path (.wait point next) (.got point answer :: trace) q

def Runs (p : Co Reply Answer α) (trace : List (Event Reply Answer)) (value : α) : Prop :=
  Path p trace (.ret value)

theorem Path.trans {p q r : Co Reply Answer α} (one : Path p first q) (two : Path q second r) :
    Path p (first ++ second) r := by
  induction one with
  | here => exact two
  | act _ ih => exact .act (ih two)
  | wait _ ih => exact .wait (ih two)

-- Whatever a program still asks, some answers take it to its end.
theorem completes (replies : (action : A) → Reply action) (answers : (point : W) → Answer point) (p : Co Reply Answer α) :
    ∃ trace value, Runs p trace value := by
  induction p with
  | ret value => exact ⟨[],value,.here⟩
  | act action next ih =>
    obtain ⟨trace,value,path⟩ := ih (replies action)
    exact ⟨_,value,.act path⟩
  | wait point next ih =>
    obtain ⟨trace,value,path⟩ := ih (answers point)
    exact ⟨_,value,.wait path⟩

theorem runs_ret {value result : α} {trace : List (Event Reply Answer)} :
    Runs (.ret value) trace result ↔ trace = [] ∧ result = value := by
  constructor
  · intro path; cases path; exact ⟨rfl,rfl⟩
  · rintro ⟨rfl,rfl⟩; exact .here

theorem runs_act {next : Reply action → Co Reply Answer α} :
    Runs (.act action next) trace result ↔
      ∃ reply rest, trace = .did action reply :: rest ∧ Runs (next reply) rest result := by
  constructor
  · intro path; cases path with
    | act path => exact ⟨_,_,rfl,path⟩
  · rintro ⟨reply,rest,rfl,path⟩; exact .act path

theorem runs_wait {next : Answer point → Co Reply Answer α} :
    Runs (.wait point next) trace result ↔
      ∃ answer rest, trace = .got point answer :: rest ∧ Runs (next answer) rest result := by
  constructor
  · intro path; cases path with
    | wait path => exact ⟨_,_,rfl,path⟩
  · rintro ⟨answer,rest,rfl,path⟩; exact .wait path

-- A completed sequence splits at the value handed from the first part to the second.
theorem runs_bind {p : Co Reply Answer α} {rest : α → Co Reply Answer β} :
    Runs (p >>= rest) trace result ↔
      ∃ first value second, trace = first ++ second ∧ Runs p first value ∧ Runs (rest value) second result := by
  constructor
  · intro path
    induction p generalizing trace with
    | ret value => exact ⟨[],value,trace,rfl,.here,path⟩
    | act action next ih =>
      obtain ⟨reply,tail,rfl,after⟩ := runs_act.mp path
      obtain ⟨first,value,second,rfl,one,two⟩ := ih reply after
      exact ⟨_,value,second,rfl,.act one,two⟩
    | wait point next ih =>
      obtain ⟨answer,tail,rfl,after⟩ := runs_wait.mp path
      obtain ⟨first,value,second,rfl,one,two⟩ := ih answer after
      exact ⟨_,value,second,rfl,.wait one,two⟩
  · rintro ⟨first,value,second,rfl,one,two⟩
    induction p generalizing first with
    | ret start => obtain ⟨rfl,rfl⟩ := runs_ret.mp one; exact two
    | act action next ih =>
      obtain ⟨reply,tail,rfl,after⟩ := runs_act.mp one
      exact .act (ih reply tail after)
    | wait point next ih =>
      obtain ⟨answer,tail,rfl,after⟩ := runs_wait.mp one
      exact .wait (ih answer tail after)

theorem runs_perform {rest : Reply action → Co Reply Answer β} :
    Runs (perform action >>= rest) trace result ↔
      ∃ reply tail, trace = .did action reply :: tail ∧ Runs (rest reply) tail result := runs_act

theorem runs_await {rest : Answer point → Co Reply Answer β} :
    Runs (await point >>= rest) trace result ↔
      ∃ answer tail, trace = .got point answer :: tail ∧ Runs (rest answer) tail result := runs_wait

section Scheduler

-- Requests of type Q run one program each over a shared state of type S, and the
-- surroundings may change that state between two resumptions.
structure Host (S Q E : Type) {A W : Type} (Reply : A → Type) (Answer : W → Type) (α : Type) where
  exec : Nat → (action : A) → S → Reply action × S
  program : Q → Co Reply Answer α
  happen : E → S → S

structure Thread (Q : Type) {A W : Type} (Reply : A → Type) (Answer : W → Type) (α : Type) where
  request : Q
  trace : List (Event Reply Answer)
  code : Co Reply Answer α

structure World (S Q : Type) {A W : Type} (Reply : A → Type) (Answer : W → Type) (α : Type) where
  shared : S
  threads : List (Thread Q Reply Answer α)

inductive Action (Q E : Type) {W : Type} (Answer : W → Type) where
  | spawn (request : Q)
  | resume (thread : Nat) (answers : (point : W) → Answer point)
  | surround (event : E)

variable {S Q E : Type} (host : Host S Q E Reply Answer α)

-- One uninterrupted step: run the atomic actions up to the next wait or the end.
def settle (i : Nat) : S → Co Reply Answer α → S × List (Event Reply Answer) × Co Reply Answer α
  | s,.ret value => (s,[],.ret value)
  | s,.wait point next => (s,[],.wait point next)
  | s,.act action next =>
    let out := host.exec i action s
    let rest := settle i out.2 (next out.1)
    (rest.1,.did action out.1 :: rest.2.1,rest.2.2)

def advance (w : World S Q Reply Answer α) : Action Q E Answer → Option (World S Q Reply Answer α)
  | .spawn request =>
    let out := settle host w.threads.length w.shared (host.program request)
    some ⟨out.1,w.threads ++ [⟨request,out.2.1,out.2.2⟩]⟩
  | .resume i answers =>
    match w.threads[i]? with
    | some ⟨request,trace,.wait point next⟩ =>
      let out := settle host i w.shared (next (answers point))
      some ⟨out.1,w.threads.set i ⟨request,trace ++ .got point (answers point) :: out.2.1,out.2.2⟩⟩
    | _ => none
  | .surround event => some {w with shared := host.happen event w.shared}

-- Where one uninterrupted step of any program leads, without the record of it.
def stop {β : Type} (i : Nat) : S → Co Reply Answer β → S × Co Reply Answer β
  | s,.ret value => (s,.ret value)
  | s,.wait point next => (s,.wait point next)
  | s,.act action next => stop i (host.exec i action s).2 (next (host.exec i action s).1)

theorem stop_perform {β : Type} (i : Nat) (s : S) (action : A) (rest : Reply action → Co Reply Answer β) :
    stop host i s (perform action >>= rest) = stop host i (host.exec i action s).2 (rest (host.exec i action s).1) := rfl

theorem stop_returned {β γ : Type} {p : Co Reply Answer β} {value : β} (ended : stop host i s p = (after,.ret value))
    (rest : β → Co Reply Answer γ) : stop host i s (p >>= rest) = stop host i after (rest value) := by
  induction p generalizing s with
  | ret result =>
    cases ended
    rfl
  | act action next ih => exact ih _ ended
  | wait point next _ => cases ended

theorem stop_waiting {β γ : Type} {p : Co Reply Answer β} {next : Answer point → Co Reply Answer β}
    (waits : stop host i s p = (after,.wait point next)) (rest : β → Co Reply Answer γ) :
    stop host i s (p >>= rest) = (after,.wait point fun answer => next answer >>= rest) := by
  induction p generalizing s with
  | ret result => cases waits
  | act action next ih => exact ih _ waits
  | wait other later _ =>
    cases waits
    rfl

theorem stop_settle (i : Nat) (s : S) (p : Co Reply Answer α) : stop host i s p = ((settle host i s p).1,(settle host i s p).2.2) := by
  induction p generalizing s with
  | ret value => rfl
  | wait point next _ => rfl
  | act action next ih => exact ih _ _

-- One program alone, run to its end with the given answers.
def solo {β : Type} (i : Nat) :
    S → Co Reply Answer β → List ((point : W) → Answer point) → Option (List (Event Reply Answer) × β)
  | _,.ret value,_ => some ([],value)
  | _,.wait _ _,[] => none
  | s,.wait point next,answers :: rest =>
    (solo i s (next (answers point)) rest).map fun out => (.got point (answers point) :: out.1,out.2)
  | s,.act action next,answers =>
    let out := host.exec i action s
    (solo i out.2 (next out.1) answers).map fun rest => (.did action out.1 :: rest.1,rest.2)

theorem solo_runs {β : Type} {p : Co Reply Answer β} {value : β} (ran : solo host i s p answers = some (trace,value)) :
    Runs p trace value := by
  induction p generalizing s answers trace with
  | ret result =>
    cases Option.some.inj ran
    exact .here
  | act action next ih =>
    obtain ⟨⟨rest,result⟩,later,same⟩ := Option.map_eq_some_iff.mp ran
    cases same
    exact .act (ih _ later)
  | wait point next ih =>
    cases answers with
    | nil => cases ran
    | cons first others =>
      obtain ⟨⟨rest,result⟩,later,same⟩ := Option.map_eq_some_iff.mp ran
      cases same
      exact .wait (ih _ later)

theorem settle_path (i : Nat) (s : S) (p : Co Reply Answer α) :
    Path p (settle host i s p).2.1 (settle host i s p).2.2 := by
  induction p generalizing s with
  | ret value => exact .here
  | wait point next _ => exact .here
  | act action next ih => exact .act (ih _ _)

theorem advance_cases {w next : World S Q Reply Answer α} {action : Action Q E Answer}
    (ran : advance host w action = some next) :
    (∃ request, action = .spawn request ∧
      next = ⟨(settle host w.threads.length w.shared (host.program request)).1,w.threads ++
        [⟨request,(settle host w.threads.length w.shared (host.program request)).2.1,
          (settle host w.threads.length w.shared (host.program request)).2.2⟩]⟩) ∨
    (∃ i answers request trace point rest, action = .resume i answers ∧
      w.threads[i]? = some ⟨request,trace,.wait point rest⟩ ∧
      next = ⟨(settle host i w.shared (rest (answers point))).1,
        w.threads.set i ⟨request,trace ++ .got point (answers point) ::
          (settle host i w.shared (rest (answers point))).2.1,
          (settle host i w.shared (rest (answers point))).2.2⟩⟩) ∨
    (∃ event, action = .surround event ∧ next = {w with shared := host.happen event w.shared}) := by
  cases action with
  | spawn request => exact .inl ⟨request,rfl,(Option.some.inj ran).symm⟩
  | surround event => exact .inr (.inr ⟨event,rfl,(Option.some.inj ran).symm⟩)
  | resume i answers =>
    simp only [advance] at ran
    split at ran
    · rename_i request trace point rest found
      exact .inr (.inl ⟨i,answers,request,trace,point,rest,rfl,found,(Option.some.inj ran).symm⟩)
    · cases ran

-- The recorded trace of a request is a path of its own program, so whatever
-- holds of every path holds of every request in every interleaving.
theorem reached_path {meets : World S Q Reply Answer α → Action Q E Answer → Prop}
    (path : Transition.Reached (advance host) meets ⟨start,[]⟩ w) :
    ∀ thread ∈ w.threads, Path (host.program thread.request) thread.trace thread.code := by
  induction path with
  | initial => intro thread member; cases member
  | step _ _ ran ih =>
    obtain ⟨request,-,rfl⟩ | ⟨i,answers,request,trace,point,rest,-,found,rfl⟩ | ⟨event,-,rfl⟩ :=
      advance_cases host ran
    · intro thread member
      rcases List.mem_append.mp member with old | new
      · exact ih thread old
      · cases List.mem_singleton.mp new; exact settle_path host _ _ _
    · intro thread member
      rcases List.mem_or_eq_of_mem_set member with old | rfl
      · exact ih thread old
      · have before := ih _ (List.mem_of_getElem? found)
        exact before.trans (.wait (settle_path host _ _ _))
    · exact ih

theorem settle_shared {Inv : S → Prop} (exec : ∀ i action s, Inv s → Inv (host.exec i action s).2) (i : Nat) (s : S)
    (p : Co Reply Answer α) (inv : Inv s) : Inv (settle host i s p).1 := by
  induction p generalizing s with
  | ret value => exact inv
  | wait point next _ => exact inv
  | act action next ih => exact ih _ _ (exec i action s inv)

theorem reached_shared {Inv : S → Prop} {meets : World S Q Reply Answer α → Action Q E Answer → Prop}
    (exec : ∀ i action s, Inv s → Inv (host.exec i action s).2) (happen : ∀ event s, Inv s → Inv (host.happen event s))
    (initial : Inv start) (path : Transition.Reached (advance host) meets ⟨start,[]⟩ w) : Inv w.shared := by
  induction path with
  | initial => exact initial
  | step _ _ ran ih =>
    obtain ⟨request,-,rfl⟩ | ⟨i,answers,request,trace,point,rest,-,found,rfl⟩ | ⟨event,-,rfl⟩ :=
      advance_cases host ran
    · exact settle_shared host exec _ _ _ ih
    · exact settle_shared host exec _ _ _ ih
    · exact happen event _ ih

end Scheduler
end Coroutine
