import Mathlib.Data.List.Basic
import Kvmux.GateRuns

namespace Kvmux.GateOrder
open GlobalGate GateRuns Transition Tally

-- Calls are numbered in the order in which acquire is called. A call owns a slot
-- from the moment the slot is granted, which may be well before it resumes.
def owns (s : Calls) (i : Nat) : Bool := s.calls[i]?.any (ownsSlot s.gate i)

def admitted (s : Calls) (i : Nat) : Prop := s.calls[i]? = some .holding ∨ s.calls[i]? = some .released

def newlyGranted (s next : Calls) : List Nat :=
  (List.range next.calls.length).filter fun i => owns next i && !owns s i

-- A run of the gate together with the calls it has granted slots to, in order.
structure History where
  now : Calls
  grants : List Nat := []
  deriving DecidableEq, Repr

def extend (h : History) (act : Act) : Option History :=
  (step h.now act).map fun next => ⟨next,h.grants ++ newlyGranted h.now next⟩

theorem owns_bound (owned : owns s i = true) : i < s.calls.length := by
  by_contra beyond
  rw [owns,List.getElem?_eq_none (by omega)] at owned
  cases owned

theorem newlyGranted_mem : i ∈ newlyGranted s next ↔ owns next i = true ∧ owns s i = false := by
  simp only [newlyGranted,List.mem_filter,List.mem_range,Bool.and_eq_true,Bool.not_eq_true']
  exact ⟨fun found => found.2,fun found => ⟨owns_bound found.1,found⟩⟩

-- Ownership looks at the call's own phase and its own granted flag only.
theorem owns_congr (phase : next.calls[i]?.map Status.phase = s.calls[i]?.map Status.phase)
    (flag : i ∈ next.gate.granted ↔ i ∈ s.gate.granted) : owns next i = owns s i := by
  have spelled : ∀ c : Calls, owns c i = (c.calls[i]?.map Status.phase).any (holdsSlot c.gate i) := by
    intro c
    cases found : c.calls[i]? <;> simp [owns,found,ownsSlot]
  have same : holdsSlot next.gate i = holdsSlot s.gate i := by
    funext phase
    cases phase <;> simp [holdsSlot,flag]
  rw [spelled,spelled,phase,same]

structure Queue (s : Calls) : Prop where
  sorted : s.gate.waiters.Pairwise (· < ·)
  queued : ∀ w ∈ s.gate.waiters, (∃ fired, s.calls[w]? = some (.waiting fired)) ∧ w ∉ s.gate.granted
  known : ∀ i ∈ s.gate.granted, i < s.calls.length

theorem Queue.bound (valid : Queue s) (waits : w ∈ s.gate.waiters) : w < s.calls.length := by
  obtain ⟨⟨fired,found⟩,-⟩ := valid.queued w waits
  exact (List.getElem?_eq_some_iff.mp found).1

theorem admitted_owner (valid : admitted s i) : owns s i = true ∨ s.calls[i]? = some .released := by
  rcases valid with holds | left
  · exact .inl (by simp [owns,holds,ownsSlot,Status.phase,holdsSlot])
  · exact .inr left

theorem entry_granted (g : Gate) (waiter : Nat) : (acquireEntry g waiter).2.granted = g.granted := by
  unfold acquireEntry
  split
  · rfl
  · split <;> rfl

theorem resume_granted (g : Gate) (waiter : Nat) : (acquireResume g waiter).2.granted = g.granted := by
  unfold acquireResume
  split <;> rfl

theorem entry_waiters (g : Gate) (waiter : Nat) :
    (acquireEntry g waiter).2.waiters = g.waiters ∨
    ((acquireEntry g waiter).1 = .queued ∧ (acquireEntry g waiter).2.waiters = g.waiters ++ [waiter]) := by
  unfold acquireEntry
  split
  · exact .inl rfl
  · split
    · exact .inl rfl
    · exact .inr ⟨rfl,rfl⟩

theorem resume_waiters (g : Gate) (waiter : Nat) :
    (waiter ∈ g.granted ∧ (acquireResume g waiter).2.waiters = g.waiters) ∨
    (waiter ∉ g.granted ∧ (acquireResume g waiter).2.waiters = g.waiters.erase waiter) := by
  unfold acquireResume
  split
  · rename_i served
    exact .inl ⟨served,rfl⟩
  · rename_i refused
    exact .inr ⟨refused,rfl⟩

-- The only two ways to a slot: the fast path past an empty queue, and a release
-- that serves the head of the queue.
theorem granted_cases (valid : Queue s) (ran : step s move = some next) (granted : i ∈ newlyGranted s next) :
    (i = s.calls.length ∧ s.gate.waiters = [] ∧ next.gate.waiters = []) ∨ s.gate.waiters = i :: next.gate.waiters := by
  obtain ⟨after,before⟩ := newlyGranted_mem.mp granted
  have changed : owns next i ≠ owns s i := by simp [after,before]
  obtain ⟨-,rfl⟩ | ⟨call,-,armed,rfl⟩ | ⟨call,fired,-,found,rfl⟩ | ⟨call,-,holds,rfl⟩ := step_cases ran
  · left
    have flag := entry_granted s.gate s.calls.length
    by_cases old : i < s.calls.length
    · exact absurd (owns_congr (by simp [List.getElem?_append_left old]) (by simp [flag])) changed
    · have last : i = s.calls.length := by
        have := owns_bound after
        simp only [List.length_append,List.length_singleton] at this
        omega
      subst last
      have fresh : s.calls.length ∉ s.gate.granted := fun member => absurd (valid.known _ member) (by omega)
      unfold acquireEntry at after ⊢
      split
      · rename_i free
        exact ⟨rfl,free.2,free.2⟩
      · rename_i busy
        rw [if_neg busy] at after
        split at after
        · simp [owns,ownsSlot,Entry.status,Status.phase,holdsSlot] at after
        · simp [owns,ownsSlot,Entry.status,Status.phase,holdsSlot,fresh] at after
  · have phase : ((s.calls.set call (.waiting true))[i]?).map Status.phase = s.calls[i]?.map Status.phase := by
      rw [← List.getElem?_map,List.map_set,← List.getElem?_map]
      exact congrArg (·[i]?) (set_own (by simp [armed,Status.phase]))
    exact absurd (owns_congr phase (by simp)) changed
  · have flag := resume_granted s.gate call
    by_cases same : call = i
    · subst same
      have bound := (List.getElem?_eq_some_iff.mp found).1
      unfold acquireResume at after
      split at after
      · rename_i served
        simp [owns,found,ownsSlot,Status.phase,holdsSlot,served] at before
      · simp [owns,bound,ownsSlot,AdmitStatus.status,Status.phase,holdsSlot] at after
    · exact absurd (owns_congr (by simp [List.getElem?_set_ne same]) (by simp [flag])) changed
  · right
    by_cases same : call = i
    · subst same
      simp [owns,holds,ownsSlot,Status.phase,holdsSlot] at before
    · unfold release at changed ⊢
      cases waiting : s.gate.waiters with
      | nil => exact absurd (owns_congr (by simp [List.getElem?_set_ne same]) (by simp [waiting])) changed
      | cons w rest =>
        by_cases served : i = w
        · simp [served]
        · exact absurd (owns_congr (by simp [List.getElem?_set_ne same]) (by simp [waiting,served])) changed

-- A step that moves one call on may shorten the queue and set flags of calls
-- that have left it.
theorem queue_moved (valid : Queue s) (left : g.waiters.Sublist s.gate.waiters)
    (own : call ∈ g.waiters → ∃ fired, status = .waiting fired)
    (flags : ∀ i ∈ g.granted, i ∈ s.gate.granted ∨ (i ∈ s.gate.waiters ∧ i ∉ g.waiters)) :
    Queue ⟨g,s.calls.set call status⟩ := by
  refine ⟨valid.sorted.sublist left,?_,?_⟩
  · intro w waits
    obtain ⟨⟨fired,found⟩,unserved⟩ := valid.queued w (left.subset waits)
    refine ⟨?_,fun member => (flags w member).elim unserved fun gone => gone.2 waits⟩
    by_cases same : call = w
    · subst same
      obtain ⟨later,rfl⟩ := own waits
      exact ⟨later,by simp [(List.getElem?_eq_some_iff.mp found).1]⟩
    · exact ⟨fired,by rwa [List.getElem?_set_ne same]⟩
  · intro i member
    rw [List.length_set]
    exact (flags i member).elim (valid.known i) fun gone => valid.bound gone.1

theorem queue_arrived (valid : Queue s) :
    Queue ⟨(acquireEntry s.gate s.calls.length).2,s.calls ++ [Entry.status (acquireEntry s.gate s.calls.length).1]⟩ := by
  have flag := entry_granted s.gate s.calls.length
  have older : ∀ w ∈ s.gate.waiters, (∃ fired, (s.calls ++ [Entry.status (acquireEntry s.gate s.calls.length).1])[w]? =
      some (.waiting fired)) ∧ w ∉ s.gate.granted := by
    intro w waits
    rw [List.getElem?_append_left (valid.bound waits)]
    exact valid.queued w waits
  have known : ∀ i ∈ s.gate.granted, i < s.calls.length + 1 := fun i member => Nat.lt_succ_of_lt (valid.known i member)
  rcases entry_waiters s.gate s.calls.length with kept | ⟨entry,joined⟩
  · exact ⟨kept ▸ valid.sorted,by rw [kept,flag]; exact older,by simpa [flag] using known⟩
  · refine ⟨?_,?_,by simpa [flag] using known⟩
    · rw [joined,List.pairwise_append]
      exact ⟨valid.sorted,List.pairwise_singleton _ _,fun w waits new last =>
        List.mem_singleton.mp last ▸ valid.bound waits⟩
    · intro w waits
      rw [joined] at waits
      rw [flag]
      rcases List.mem_append.mp waits with old | new
      · exact older w old
      · cases List.mem_singleton.mp new
        exact ⟨⟨false,by simp [entry,Entry.status]⟩,fun member => absurd (valid.known _ member) (by omega)⟩

theorem queue_preserved (valid : Queue s) (ran : step s move = some next) : Queue next := by
  have nodup : s.gate.waiters.Nodup := valid.sorted.imp fun less => Nat.ne_of_lt less
  obtain ⟨-,rfl⟩ | ⟨call,-,armed,rfl⟩ | ⟨call,fired,-,found,rfl⟩ | ⟨call,-,holds,rfl⟩ := step_cases ran
  · exact queue_arrived valid
  · exact queue_moved valid (.refl _) (fun _ => ⟨true,rfl⟩) (fun i member => .inl member)
  · have flag := resume_granted s.gate call
    refine queue_moved valid ?_ ?_ (fun i member => .inl (flag ▸ member))
    · rcases resume_waiters s.gate call with ⟨-,kept⟩ | ⟨-,left⟩
      · rw [kept]
      · rw [left]
        exact List.erase_sublist
    · intro waits
      rcases resume_waiters s.gate call with ⟨served,kept⟩ | ⟨-,left⟩
      · exact absurd served (valid.queued call (kept ▸ waits)).2
      · exact absurd (left ▸ waits) nodup.not_mem_erase
  · have gone : call ∉ s.gate.waiters := by
      intro waits
      obtain ⟨⟨fired,found⟩,-⟩ := valid.queued call waits
      simp [holds] at found
    unfold release
    cases waiting : s.gate.waiters with
    | nil => exact queue_moved valid (by simp) (fun waits => absurd waits (by simp)) (fun i member => .inl member)
    | cons w rest =>
      rw [waiting] at gone nodup
      refine queue_moved valid (by simp [waiting]) (fun waits => absurd (List.mem_cons_of_mem w waits) gone) ?_
      intro i member
      rcases List.mem_cons.mp member with rfl | old
      · exact .inr ⟨by simp [waiting],(List.nodup_cons.mp nodup).1⟩
      · exact .inl old

theorem waiters_from (ran : step s move = some next) (waits : w ∈ next.gate.waiters) :
    w ∈ s.gate.waiters ∨ w = s.calls.length := by
  obtain ⟨-,rfl⟩ | ⟨call,-,-,rfl⟩ | ⟨call,fired,-,-,rfl⟩ | ⟨call,-,-,rfl⟩ := step_cases ran
  · rcases entry_waiters s.gate s.calls.length with kept | ⟨-,joined⟩
    · exact .inl (kept ▸ waits)
    · rw [joined] at waits
      simpa using waits
  · exact .inl waits
  · rcases resume_waiters s.gate call with ⟨-,kept⟩ | ⟨-,left⟩
    · exact .inl (kept ▸ waits)
    · exact .inl (List.mem_of_mem_erase (left ▸ waits))
  · unfold release at waits
    cases waiting : s.gate.waiters with
    | nil => simp [waiting] at waits
    | cons first rest => exact .inl (List.mem_cons_of_mem first (by simpa [waiting] using waits))

theorem calls_grow (ran : step s move = some next) : s.calls.length ≤ next.calls.length := by
  obtain ⟨-,rfl⟩ | ⟨call,-,-,rfl⟩ | ⟨call,fired,-,-,rfl⟩ | ⟨call,-,-,rfl⟩ := step_cases ran <;> simp

-- A call that has released its slot owned it just before.
theorem released_from (ran : step s move = some next) (left : next.calls[i]? = some .released) :
    owns s i = true ∨ s.calls[i]? = some .released := by
  have others : ∀ call status, status ≠ Status.released → (s.calls.set call status)[i]? = some .released →
      s.calls[i]? = some .released := by
    intro call status other found
    by_cases same : call = i
    · subst same
      have bound : call < (s.calls.set call status).length := (List.getElem?_eq_some_iff.mp found).1
      rw [List.length_set] at bound
      simp [bound,other] at found
    · rwa [List.getElem?_set_ne same] at found
  obtain ⟨-,rfl⟩ | ⟨call,-,-,rfl⟩ | ⟨call,fired,-,-,rfl⟩ | ⟨call,-,holds,rfl⟩ := step_cases ran
  · right
    by_cases old : i < s.calls.length
    · rwa [List.getElem?_append_left old] at left
    · rw [List.getElem?_append_right (by omega)] at left
      obtain ⟨inside,entry⟩ := List.getElem?_eq_some_iff.mp left
      cases entered : (acquireEntry s.gate s.calls.length).1 <;> simp [entered,Entry.status] at entry
  · exact .inr (others call _ (by simp) left)
  · refine .inr (others call _ ?_ left)
    cases (acquireResume s.gate call).1 <;> simp [AdmitStatus.status]
  · by_cases same : call = i
    · subst same
      exact admitted_owner (.inl holds)
    · rw [List.getElem?_set_ne same] at left
      exact .inr left

-- The grants so far are in call order, and everybody still queued comes later.
structure Ordered (h : History) : Prop where
  queue : Queue h.now
  sorted : h.grants.Pairwise (· < ·)
  behind : ∀ i ∈ h.grants, ∀ w ∈ h.now.gate.waiters, i < w
  arrived : ∀ i ∈ h.grants, i < h.now.calls.length
  logged : ∀ i, owns h.now i = true ∨ h.now.calls[i]? = some .released → i ∈ h.grants

theorem ordered_preserved (h : History) (act : Act) (next : History) (valid : Ordered h) (_ : Any h act)
    (ran : extend h act = some next) : Ordered next := by
  obtain ⟨after,moved,rfl⟩ := Option.map_eq_some_iff.mp ran
  refine ⟨queue_preserved valid.queue moved,?_,?_,?_,?_⟩
  · refine List.pairwise_append.mpr ⟨valid.sorted,List.pairwise_lt_range.filter _,?_⟩
    intro earlier logged i granted
    rcases granted_cases valid.queue moved granted with ⟨rfl,-,-⟩ | served
    · exact valid.arrived earlier logged
    · exact valid.behind earlier logged i (by simp [served])
  · intro i member w waits
    rcases List.mem_append.mp member with logged | granted
    · rcases waiters_from moved waits with old | rfl
      · exact valid.behind i logged w old
      · exact valid.arrived i logged
    · rcases granted_cases valid.queue moved granted with ⟨-,-,empty⟩ | served
      · rw [empty] at waits
        cases waits
      · have sorted := valid.queue.sorted
        rw [served] at sorted
        exact List.rel_of_pairwise_cons sorted waits
  · intro i member
    rcases List.mem_append.mp member with logged | granted
    · exact Nat.lt_of_lt_of_le (valid.arrived i logged) (calls_grow moved)
    · exact owns_bound (newlyGranted_mem.mp granted).1
  · intro i owner
    refine List.mem_append.mpr ?_
    by_cases before : owns h.now i = true ∨ h.now.calls[i]? = some .released
    · exact .inl (valid.logged i before)
    · rcases owner with owned | left
      · exact .inr (newlyGranted_mem.mpr ⟨owned,by simpa using fun owned => before (.inl owned)⟩)
      · exact absurd (released_from moved left) before

theorem reached_ordered (path : Reached extend Any ⟨begin maxConcurrent queueDepth,[]⟩ h) : Ordered h := by
  refine reached_invariant Ordered ⟨⟨.nil,?_,?_⟩,.nil,?_,?_,?_⟩ ordered_preserved path
  · simp [begin,start]
  · simp [begin,start]
  · simp
  · simp
  · simp [begin,owns]

theorem sorted_pair {xs : List Nat} (sorted : xs.Pairwise (· < ·)) (first : i ∈ xs) (second : j ∈ xs) (less : i < j) :
    List.Sublist [i,j] xs := by
  induction xs with
  | nil => cases first
  | cons x rest ih =>
    obtain ⟨least,later⟩ := List.pairwise_cons.mp sorted
    rcases List.mem_cons.mp first with rfl | inner
    · rcases List.mem_cons.mp second with rfl | tail
      · omega
      · exact (List.singleton_sublist.mpr tail).cons_cons i
    · rcases List.mem_cons.mp second with rfl | tail
      · exact absurd (least i inner) (by omega)
      · exact (ih later inner tail).cons x

-- Slots are granted once each and in the order of the acquire calls, and no
-- grant passes over an earlier call that still waits.
theorem admission_fifo (path : Reached extend Any ⟨begin maxConcurrent queueDepth,[]⟩ h) :
    h.grants.Nodup ∧
    (∀ i j, i < j → admitted h.now i → admitted h.now j → List.Sublist [i,j] h.grants) ∧
    (∀ act next, step h.now act = some next → ∀ i ∈ newlyGranted h.now next, ∀ w ∈ h.now.gate.waiters, ¬ w < i) := by
  have valid := reached_ordered path
  refine ⟨valid.sorted.imp fun less => Nat.ne_of_lt less,?_,?_⟩
  · intro i j less first second
    exact sorted_pair valid.sorted (valid.logged i (admitted_owner first)) (valid.logged j (admitted_owner second)) less
  · intro act next ran i granted w waits
    rcases granted_cases valid.queue ran granted with ⟨-,empty,-⟩ | served
    · rw [empty] at waits
      cases waits
    · have sorted := valid.queue.sorted
      rw [served] at sorted waits
      rcases List.mem_cons.mp waits with rfl | later
      · omega
      · have := List.rel_of_pairwise_cons sorted later
        omega

-- One slot and room for three: call 1 gives up in the middle of the queue, and
-- call 2 is served before call 3 although its timer has fired.
def queueing : List Act :=
  [.acquire,.acquire,.acquire,.acquire,.expire 1,.resume 1,.expire 2,.release 0,.resume 2,.release 2,.resume 3]

theorem admission_fifo_queueing : ∃ h, run extend ⟨begin 1 3,[]⟩ queueing = some h ∧ h.grants = [0,2,3] ∧
    admitted h.now 2 ∧ admitted h.now 3 ∧ List.Sublist [2,3] h.grants := by
  have ran : run extend ⟨begin 1 3,[]⟩ queueing = some
      ⟨⟨{maxConcurrent := 1,queueDepth := 3,inFlight := 1,granted := [3,2]},[.released,.timedOut,.released,.holding]⟩,[0,2,3]⟩ := by
    decide
  have fifo := (admission_fifo (run_reached .initial ran)).2.1 2 3 (by decide) (.inr rfl) (.inl rfl)
  exact ⟨_,ran,rfl,.inr rfl,.inl rfl,fifo⟩

end Kvmux.GateOrder
