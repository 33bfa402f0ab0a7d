import Mathlib.Data.List.Forall2
import Kvmux.Coroutine
import Kvmux.Tally

namespace Coroutine
open Tally

-- Bookkeeping along a path. `book` either enters an event or refuses it, and
-- `allows` limits which replies the surroundings are taken to give.
structure Ledger {A W : Type} (Reply : A → Type) (Answer : W → Type) (L : Type) where
  allows : L → Event Reply Answer → Prop
  book : L → Event Reply Answer → Option L

variable {A W : Type} {Reply : A → Type} {Answer : W → Type} {α β L : Type}

-- The program never makes an entry the ledger refuses, and ends in `post`.
def Keeps (D : Ledger Reply Answer L) : L → Co Reply Answer α → (L → α → Prop) → Prop
  | l,.ret value,post => post l value
  | l,.act action next,post => ∀ reply, D.allows l (.did action reply) →
      ∃ after, D.book l (.did action reply) = some after ∧ Keeps D after (next reply) post
  | l,.wait point next,post => ∀ answer, D.allows l (.got point answer) →
      ∃ after, D.book l (.got point answer) = some after ∧ Keeps D after (next answer) post

-- Fewer events to answer for, and less to establish.
theorem Keeps.weaken {D : Ledger Reply Answer L} {p : Co Reply Answer α} {post weaker : L → α → Prop}
    {allows : L → Event Reply Answer → Prop} (kept : Keeps D l p post)
    (implied : ∀ l event, allows l event → D.allows l event) (implies : ∀ l value, post l value → weaker l value) :
    Keeps ⟨allows,D.book⟩ l p weaker := by
  induction p generalizing l with
  | ret value => exact implies l value kept
  | act action next ih =>
    intro reply allowed
    obtain ⟨after,booked,rest⟩ := kept reply (implied _ _ allowed)
    exact ⟨after,booked,ih reply rest⟩
  | wait point next ih =>
    intro answer allowed
    obtain ⟨after,booked,rest⟩ := kept answer (implied _ _ allowed)
    exact ⟨after,booked,ih answer rest⟩

theorem Keeps.mono {D : Ledger Reply Answer L} {p : Co Reply Answer α} {post weaker : L → α → Prop}
    (kept : Keeps D l p post) (implies : ∀ l value, post l value → weaker l value) : Keeps D l p weaker :=
  kept.weaken (fun _ _ allowed => allowed) implies

theorem keeps_bind {D : Ledger Reply Answer L} {p : Co Reply Answer α} {rest : α → Co Reply Answer β}
    {post : L → β → Prop} :
    Keeps D l (p >>= rest) post ↔ Keeps D l p (fun l value => Keeps D l (rest value) post) := by
  induction p generalizing l with
  | ret value => exact Iff.rfl
  | act action next ih =>
    refine forall_congr' fun reply => imp_congr_right fun _ => exists_congr fun after => and_congr_right fun _ => ?_
    exact ih reply
  | wait point next ih =>
    refine forall_congr' fun answer => imp_congr_right fun _ => exists_congr fun after => and_congr_right fun _ => ?_
    exact ih answer

-- Sequencing: what the first part establishes is all the second part needs.
theorem Keeps.bind {D : Ledger Reply Answer L} {p : Co Reply Answer α} {rest : α → Co Reply Answer β}
    {middle : L → α → Prop} {post : L → β → Prop} (first : Keeps D l p middle)
    (second : ∀ l value, middle l value → Keeps D l (rest value) post) : Keeps D l (p >>= rest) post :=
  keeps_bind.mpr (first.mono second)

theorem Keeps.act {D : Ledger Reply Answer L} {action : A} {rest : Reply action → Co Reply Answer β} {post : L → β → Prop}
    {after : Reply action → L} (booked : ∀ reply, D.book l (.did action reply) = some (after reply))
    (kept : ∀ reply, D.allows l (.did action reply) → Keeps D (after reply) (rest reply) post) :
    Keeps D l (perform action >>= rest) post :=
  fun reply allowed => ⟨after reply,booked reply,kept reply allowed⟩

theorem Keeps.wait {D : Ledger Reply Answer L} {point : W} {rest : Answer point → Co Reply Answer β} {post : L → β → Prop}
    {after : Answer point → L} (booked : ∀ answer, D.book l (.got point answer) = some (after answer))
    (kept : ∀ answer, D.allows l (.got point answer) → Keeps D (after answer) (rest answer) post) :
    Keeps D l (await point >>= rest) post :=
  fun answer allowed => ⟨after answer,booked answer,kept answer allowed⟩

-- Reckoning with fewer replies keeps no less.
theorem Keeps.restrict {D : Ledger Reply Answer L} {p : Co Reply Answer α} {post : L → α → Prop}
    {allows : L → Event Reply Answer → Prop} (kept : Keeps D l p post)
    (implied : ∀ l event, allows l event → D.allows l event) : Keeps ⟨allows,D.book⟩ l p post :=
  kept.weaken implied fun _ _ held => held

-- A program confined to some requests. Where the ledger ignores those, the
-- program leaves it untouched, whatever it computes.
def Confined (acts : A → Prop) (waits : W → Prop) : Co Reply Answer α → Prop
  | .ret _ => True
  | .act action next => acts action ∧ ∀ reply, Confined acts waits (next reply)
  | .wait point next => waits point ∧ ∀ answer, Confined acts waits (next answer)

theorem Confined.bind {acts : A → Prop} {waits : W → Prop} {p : Co Reply Answer α}
    {rest : α → Co Reply Answer β} (first : Confined acts waits p)
    (second : ∀ value, Confined acts waits (rest value)) : Confined acts waits (p >>= rest) := by
  induction p with
  | ret value => exact second value
  | act action next ih => exact ⟨first.1,fun reply => ih reply (first.2 reply)⟩
  | wait point next ih => exact ⟨first.1,fun answer => ih answer (first.2 answer)⟩

theorem Confined.perform {acts : A → Prop} {waits : W → Prop} {rest : Reply action → Co Reply Answer β} (own : acts action)
    (later : ∀ reply, Confined acts waits (rest reply)) : Confined acts waits (Coroutine.perform action >>= rest) :=
  ⟨own,later⟩

theorem Confined.await {acts : A → Prop} {waits : W → Prop} {rest : Answer point → Co Reply Answer β} (own : waits point)
    (later : ∀ answer, Confined acts waits (rest answer)) : Confined acts waits (Coroutine.await point >>= rest) :=
  ⟨own,later⟩

theorem Confined.mono {acts more : A → Prop} {waits others : W → Prop} {p : Co Reply Answer α}
    (confined : Confined acts waits p) (actions : ∀ action, acts action → more action)
    (points : ∀ point, waits point → others point) : Confined more others p := by
  induction p with
  | ret value => trivial
  | act action next ih => exact ⟨actions action confined.1,fun reply => ih reply (confined.2 reply)⟩
  | wait point next ih => exact ⟨points point confined.1,fun answer => ih answer (confined.2 answer)⟩

theorem Confined.keeps {acts : A → Prop} {waits : W → Prop} {p : Co Reply Answer α}
    (confined : Confined acts waits p) (D : Ledger Reply Answer L)
    (ignoresActs : ∀ l action reply, acts action → D.book l (.did action reply) = some l)
    (ignoresWaits : ∀ l point answer, waits point → D.book l (.got point answer) = some l) :
    Keeps D l p (fun after _ => after = l) := by
  induction p with
  | ret value => rfl
  | act action next ih =>
    exact fun reply _ => ⟨l,ignoresActs _ _ _ confined.1,ih reply (confined.2 reply)⟩
  | wait point next ih =>
    exact fun answer _ => ⟨l,ignoresWaits _ _ _ confined.1,ih answer (confined.2 answer)⟩

def Within (acts : A → Prop) (waits : W → Prop) : Event Reply Answer → Prop
  | .did action _ => acts action
  | .got point _ => waits point

theorem Confined.path {acts : A → Prop} {waits : W → Prop} {p q : Co Reply Answer α} (confined : Confined acts waits p)
    (path : Path p trace q) : ∀ event ∈ trace, Within acts waits event := by
  induction path with
  | here => exact List.forall_mem_nil _
  | act _ ih => exact List.forall_mem_cons.mpr ⟨confined.1,ih (confined.2 _)⟩
  | wait _ ih => exact List.forall_mem_cons.mpr ⟨confined.1,ih (confined.2 _)⟩

theorem Confined.runs {acts : A → Prop} {waits : W → Prop} {p : Co Reply Answer α} (confined : Confined acts waits p)
    (path : Runs p trace value) : ∀ event ∈ trace, Within acts waits event := confined.path path

def replay (D : Ledger Reply Answer L) : L → List (Event Reply Answer) → Option L
  | l,[] => some l
  | l,event :: rest => (D.book l event).bind (replay D · rest)

theorem replay_append (D : Ledger Reply Answer L) (l : L) (first second : List (Event Reply Answer)) :
    replay D l (first ++ second) = (replay D l first).bind (replay D · second) := by
  induction first generalizing l with
  | nil => rfl
  | cons event rest ih =>
    cases booked : D.book l event with
    | none => simp [replay,booked]
    | some after => simp [replay,booked,ih]

-- What a program keeps is true of each of its runs.
theorem Keeps.runs {D : Ledger Reply Answer L} {p : Co Reply Answer α} {post : L → α → Prop} (kept : Keeps D l p post)
    (lenient : ∀ l event, D.allows l event) (path : Runs p trace value) :
    ∃ after, replay D l trace = some after ∧ post after value := by
  induction p generalizing l trace with
  | ret result =>
    obtain ⟨rfl,rfl⟩ := runs_ret.mp path
    exact ⟨l,rfl,kept⟩
  | act action next ih =>
    obtain ⟨reply,rest,rfl,later⟩ := runs_act.mp path
    obtain ⟨middle,booked,remains⟩ := kept reply (lenient _ _)
    simpa [replay,booked] using ih reply remains later
  | wait point next ih =>
    obtain ⟨answer,rest,rfl,later⟩ := runs_wait.mp path
    obtain ⟨middle,booked,remains⟩ := kept answer (lenient _ _)
    simpa [replay,booked] using ih answer remains later

section History
variable {X : Type} {check : List X → X → List X → Prop}

-- Every element of a list is checked against all that comes before and after it.
def AtEach (check : List X → X → List X → Prop) : List X → List X → List X → Prop
  | _,[],_ => True
  | past,x :: rest,future => check past x (rest ++ future) ∧ AtEach check (past ++ [x]) rest future

theorem atEach_append {past first second future : List X} :
    AtEach check past (first ++ second) future ↔
      AtEach check past first (second ++ future) ∧ AtEach check (past ++ first) second future := by
  induction first generalizing past with
  | nil => simp [AtEach]
  | cons x rest ih => simp [AtEach,ih,and_assoc]

theorem atEach_always {xs : List X} (always : ∀ x ∈ xs, ∀ past future, check past x future) (past future : List X) :
    AtEach check past xs future := by
  induction xs generalizing past with
  | nil => trivial
  | cons x rest ih =>
    obtain ⟨here,later⟩ := List.forall_mem_cons.mp always
    exact ⟨here past _,ih later _⟩

theorem atEach_splits {xs past future : List X} (each : ∀ before x after, xs = before ++ x :: after →
    check (past ++ before) x (after ++ future)) : AtEach check past xs future := by
  induction xs generalizing past with
  | nil => trivial
  | cons x rest ih =>
    refine ⟨by simpa using each [] x rest rfl,ih fun before y after split => ?_⟩
    simpa using each (x :: before) y after (by rw [split]; rfl)

theorem AtEach.at_split {before after : List X} (each : AtEach check past (before ++ x :: after) future) :
    check (past ++ before) x (after ++ future) :=
  (atEach_append.mp each).2.1

end History

section Shared

theorem forall₂_set {X Y : Type} {agree : X → Y → Prop} {xs : List X} {ys : List Y}
    {x : X} {y : Y} (all : List.Forall₂ agree xs ys) (new : agree x y) (i : Nat) :
    List.Forall₂ agree (xs.set i x) (ys.set i y) := by
  induction all generalizing i with
  | nil => exact .nil
  | cons head tail ih =>
    cases i with
    | zero => exact .cons new tail
    | succ i => exact .cons head (ih i)

theorem forall₂_left {X Y : Type} {agree : X → Y → Prop} {xs : List X} {ys : List Y} {x : X} (all : List.Forall₂ agree xs ys)
    (member : x ∈ xs) : ∃ y ∈ ys, agree x y := by
  induction all with
  | nil => cases member
  | cons head tail ih =>
    rcases List.mem_cons.mp member with rfl | later
    · exact ⟨_,List.mem_cons_self,head⟩
    · obtain ⟨y,inside,agrees⟩ := ih later
      exact ⟨y,List.mem_cons_of_mem _ inside,agrees⟩

theorem forall₂_right {X Y : Type} {agree : X → Y → Prop} {xs : List X} {ys : List Y} {y : Y} (all : List.Forall₂ agree xs ys)
    (member : y ∈ ys) : ∃ x ∈ xs, agree x y :=
  forall₂_left all.flip member

theorem forall₂_map {X Y Z : Type} {agree : X → Y → Prop} {xs : List X} {ys : List Y} {f : X → Z} {g : Y → Z}
    (all : List.Forall₂ agree xs ys) (same : ∀ x y, agree x y → f x = g y) : xs.map f = ys.map g := by
  induction all with
  | nil => rfl
  | cons head tail ih => rw [List.map_cons,List.map_cons,same _ _ head,ih]

variable {S Q E : Type} (host : Host S Q E Reply Answer α) (D : Ledger Reply Answer L) (blank : L)
  (post : L → α → Prop) (Inv : S → List L → Prop)

-- What ties the individual ledgers to the shared state. Each field speaks about
-- one thing a run can do; the run lemma below needs nothing else.
structure Accounts : Prop where
  keeps : ∀ request, Keeps D blank (host.program request) post
  allows : ∀ l action reply, D.allows l (.did action reply)
  arrive : ∀ s ls, Inv s ls → Inv s (ls ++ [blank])
  exec : ∀ s ls i l after action, Inv s ls → ls[i]? = some l →
    D.book l (.did action (host.exec i action s).1) = some after → Inv (host.exec i action s).2 (ls.set i after)
  answer : ∀ s ls i l after point (answer : Answer point), Inv s ls → ls[i]? = some l →
    D.allows l (.got point answer) → D.book l (.got point answer) = some after → Inv s (ls.set i after)
  surround : ∀ s ls event, Inv s ls → Inv (host.happen event s) ls

variable {host D blank post Inv}

theorem Accounts.settle (accounts : Accounts host D blank post Inv) {i : Nat} (p : Co Reply Answer α)
    (inv : Inv s ls) (own : ls[i]? = some l) (kept : Keeps D l p post) :
    ∃ after, replay D l (Coroutine.settle host i s p).2.1 = some after ∧
      Keeps D after (Coroutine.settle host i s p).2.2 post ∧
      Inv (Coroutine.settle host i s p).1 (ls.set i after) := by
  induction p generalizing s ls l with
  | ret value =>
    refine ⟨l,rfl,kept,?_⟩
    rwa [set_own own]
  | wait point next _ =>
    refine ⟨l,rfl,kept,?_⟩
    rwa [set_own own]
  | act action next ih =>
    obtain ⟨middle,booked,rest⟩ := kept _ (accounts.allows _ _ _)
    have bound : i < ls.length := (List.getElem?_eq_some_iff.mp own).1
    have moved := accounts.exec s ls i l middle action inv own booked
    obtain ⟨after,replayed,remains,holds⟩ := ih _ moved (List.getElem?_set_self bound) rest
    refine ⟨after,by simp [Coroutine.settle,replay,booked,replayed],remains,?_⟩
    simpa [Coroutine.settle,List.set_set] using holds

-- A thread agrees with its ledger: the ledger is the replay of what it has done
-- so far, and what it has still to do is kept from there.
def Agrees (D : Ledger Reply Answer L) (blank : L) (post : L → α → Prop)
    (thread : Thread Q Reply Answer α) (l : L) : Prop :=
  replay D blank thread.trace = some l ∧ Keeps D l thread.code post

theorem Agrees.ended {thread : Thread Q Reply Answer α} (agrees : Agrees D blank post thread l)
    (code : thread.code = .ret value) : post l value := by
  have rest := agrees.2
  rw [code] at rest
  exact rest

theorem accounts_reached (accounts : Accounts host D blank post Inv)
    {meets : World S Q Reply Answer α → Action Q E Answer → Prop}
    (admitted : ∀ w i answers request trace point rest l, meets w (.resume i answers) →
      w.threads[i]? = some ⟨request,trace,.wait point rest⟩ → replay D blank trace = some l →
      D.allows l (.got point (answers point)))
    (initial : Inv start []) (path : Transition.Reached (advance host) meets ⟨start,[]⟩ w) :
    ∃ ls, List.Forall₂ (Agrees D blank post) w.threads ls ∧ Inv w.shared ls := by
  induction path with
  | initial => exact ⟨[],.nil,initial⟩
  | step _ met ran ih =>
    obtain ⟨ls,agree,inv⟩ := ih
    obtain ⟨request,-,rfl⟩ | ⟨i,answers,request,trace,point,rest,rfl,found,rfl⟩ | ⟨event,-,rfl⟩ :=
      advance_cases host ran
    · have same := agree.length_eq
      obtain ⟨after,replayed,remains,holds⟩ := accounts.settle (i := ls.length) (host.program request)
        (accounts.arrive _ _ inv) (by simp) (accounts.keeps request)
      rw [← same] at replayed remains holds
      refine ⟨ls ++ [after],?_,?_⟩
      · exact List.rel_append agree (.cons ⟨replayed,remains⟩ .nil)
      · simpa [same] using holds
    · have bound : i < ls.length := by
        rw [← agree.length_eq]; exact (List.getElem?_eq_some_iff.mp found).1
      have own : ls[i]? = some ls[i] := List.getElem?_eq_getElem bound
      have here : Agrees D blank post ⟨request,trace,.wait point rest⟩ ls[i] := by
        have paired := agree.get (i := i) (by rw [agree.length_eq]; exact bound) bound
        rw [List.getElem?_eq_some_iff] at found
        obtain ⟨_,equal⟩ := found
        simpa [equal] using paired
      have allowed := admitted _ _ _ _ _ _ _ _ met found here.1
      obtain ⟨middle,booked,kept⟩ := here.2 _ allowed
      have moved := accounts.answer _ _ _ _ _ _ _ inv own allowed booked
      obtain ⟨after,replayed,remains,holds⟩ := accounts.settle (i := i) (rest (answers point)) moved
        (List.getElem?_set_self bound) kept
      refine ⟨ls.set i after,?_,by simpa [List.set_set] using holds⟩
      refine forall₂_set agree ⟨?_,remains⟩ i
      simp [replay_append,here.1,replay,booked,replayed]
    · exact ⟨ls,agree,accounts.surround _ _ _ inv⟩

end Shared

section Totals
variable {S Q E : Type} (host : Host S Q E Reply Answer α) (weight : A → Nat)

-- What the actions of a trace weigh together.
def spent : List (Event Reply Answer) → Nat
  | [] => 0
  | .did action _ :: rest => weight action + spent rest
  | .got _ _ :: rest => spent rest

theorem spent_append (first second : List (Event Reply Answer)) :
    spent weight (first ++ second) = spent weight first + spent weight second := by
  induction first with
  | nil => simp [spent]
  | cons event rest ih =>
    cases event with
    | did action reply => simp only [List.cons_append,spent,ih]; omega
    | got point answer => exact ih

variable {host weight} (measure : S → Nat) (exec : ∀ i action s, measure (host.exec i action s).2 = measure s + weight action)
include exec

theorem settle_spent (i : Nat) (s : S) (p : Co Reply Answer α) :
    measure (settle host i s p).1 = measure s + spent weight (settle host i s p).2.1 := by
  induction p generalizing s with
  | ret value => rfl
  | wait point next _ => rfl
  | act action next ih =>
    have later := ih (host.exec i action s).1 (host.exec i action s).2
    rw [exec i action s] at later
    simp only [settle,spent]; omega

-- A quantity of the shared state that every action adds its weight to is the weight
-- of all that the requests did, however they interleave: nothing lost, nothing twice.
theorem reached_spent {meets : World S Q Reply Answer α → Action Q E Answer → Prop}
    (happen : ∀ event s, measure (host.happen event s) = measure s)
    (path : Transition.Reached (advance host) meets ⟨start,[]⟩ w) :
    measure w.shared = measure start + total (fun thread => spent weight thread.trace) w.threads := by
  induction path with
  | initial => rfl
  | @step before act next _ _ ran ih =>
    obtain ⟨request,-,rfl⟩ | ⟨i,answers,request,trace,point,rest,-,found,rfl⟩ | ⟨event,-,rfl⟩ :=
      advance_cases host ran
    · rw [settle_spent measure exec,total_append,ih]
      simp only [total]; omega
    · have added := total_set (fun thread : Thread Q Reply Answer α => spent weight thread.trace) found
        ⟨request,trace ++ .got point (answers point) :: (settle host i before.shared (rest (answers point))).2.1,
          (settle host i before.shared (rest (answers point))).2.2⟩
      rw [settle_spent measure exec,ih]
      simp only [spent_append,spent] at added ⊢
      omega
    · rw [happen,ih]

end Totals
end Coroutine
