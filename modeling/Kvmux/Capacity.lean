import Mathlib.Algebra.BigOperators.Ring.Finset
import Mathlib.Data.List.Basic
import Kvmux.Holdings
import Kvmux.Fleet
import Kvmux.Tally

namespace Kvmux.Capacity
open Coroutine GlobalGate Gateway Fleet Holdings Tally Transition

def limiters (s : State) : List PerBackendLimiter := s.backends.map Backend.limiter

def occupies (b : Nat) (slot : Option Nat) : Bool := slot == some b

-- The gate and the limiters agree with what the requests hold.
structure Accounted (g : Gate) (lims : List PerBackendLimiter) (phases : List Phase) (slots : List (Option Nat)) :
    Prop where
  gate : GateInv g phases
  active : ∀ (b : Nat) (lim : PerBackendLimiter), lims[b]? = some lim → lim.active = (tally (fun _ => occupies b) slots : Nat)
  room : ∀ (b : Nat) (lim : PerBackendLimiter), lims[b]? = some lim → lim.active ≤ lim.maxInFlight
  ticket : ∀ (i b : Nat), slots[i]? = some (some b) → phases[i]? = some .holding ∧ b < lims.length

def Inv (s : State) (hs : List Holding) : Prop :=
  Accounted s.gate (limiters s) (hs.map Holding.phase) (hs.map Holding.slot)

theorem arrive_accounted (s : State) (hs : List Holding) (inv : Inv s hs) : Inv s (hs ++ [({} : Holding)]) := by
  unfold Inv at inv ⊢
  rw [List.map_append,List.map_append]
  refine ⟨arrive_inv inv.gate,?_,inv.room,?_⟩
  · intro b lim found
    rw [List.map_singleton,tally_append]
    simpa [occupies] using inv.active b lim found
  · intro i b taken
    rw [List.getElem?_append] at taken ⊢
    split at taken
    · rename_i bound
      rw [if_pos (by simpa using bound)]
      exact inv.ticket i b taken
    · have := List.mem_of_getElem? taken
      simp at this

-- A step that touches neither what the request holds nor what is counted.
theorem unchanged_accounted {hs : List Holding} (inv : Inv s hs) (own : hs[i]? = some h) (phase : after.phase = h.phase)
    (slot : after.slot = h.slot) (gate : next.gate = s.gate) (limited : limiters next = limiters s) :
    Inv next (hs.set i after) := by
  have phases : (hs.set i after).map Holding.phase = hs.map Holding.phase := by
    rw [List.map_set]
    exact set_own (by simp [own,phase])
  have slots : (hs.set i after).map Holding.slot = hs.map Holding.slot := by
    rw [List.map_set]
    exact set_own (by simp [own,slot])
  unfold Inv
  rw [phases,slots,gate,limited]
  exact inv

-- The request moves at the gate without a slot.
theorem gate_accounted {hs : List Holding} (inv : Inv s hs) (own : hs[i]? = some h) (slot : after.slot = h.slot)
    (free : h.slot = none) (limited : limiters next = limiters s)
    (gate : GateInv next.gate ((hs.map Holding.phase).set i after.phase)) : Inv next (hs.set i after) := by
  have slots : (hs.set i after).map Holding.slot = hs.map Holding.slot := by
    rw [List.map_set]
    exact set_own (by simp [own,slot])
  unfold Inv
  rw [List.map_set,slots,limited]
  refine ⟨gate,inv.active,inv.room,?_⟩
  intro j b taken
  have holding := inv.ticket j b taken
  by_cases same : j = i
  · subst j
    simp [own,free] at taken
  · rwa [List.getElem?_set_ne (Ne.symm same)]

theorem limiters_changed {R : Type} {s : State} {b : Nat} (known : s.backends[b]? = some backend) (fallback : R)
    (f : Backend → R × Backend) :
    limiters (onBackend s b fallback f).2 = (limiters s).set b (f backend).2.limiter := by
  rw [onBackend_changed known]
  exact List.map_set

theorem limiters_kept {R : Type} (s : State) (b : Nat) (fallback : R) (f : Backend → R × Backend)
    (kept : ∀ backend, (f backend).2.limiter = backend.limiter) :
    limiters (onBackend s b fallback f).2 = limiters s :=
  onBackend_kept Backend.limiter s b fallback f kept

theorem slot_free {hs : List Holding} {i : Nat} {h : Holding} (inv : Inv s hs) (own : hs[i]? = some h) (outside : h.phase ≠ .holding) :
    h.slot = none := by
  cases slot : h.slot with
  | none => rfl
  | some b =>
    have held := (inv.ticket i b (by simp [own,slot])).1
    rw [List.getElem?_map,own] at held
    exact absurd (Option.some.inj held) outside

-- One limiter and one request's slot move together.
theorem slot_accounted {hs : List Holding} {lim : PerBackendLimiter} (inv : Inv s hs) (own : hs[i]? = some h)
    (holds : h.phase = .holding) (found : (limiters s)[b]? = some lim)
    (phase : after.phase = h.phase) (others : ∀ c, c ≠ b → occupies c after.slot = occupies c h.slot)
    (moved : changed.active + (occupies b h.slot).toNat = lim.active + (occupies b after.slot).toNat)
    (capped : changed.active ≤ changed.maxInFlight) (gate : next.gate = s.gate)
    (limited : limiters next = (limiters s).set b changed) : Inv next (hs.set i after) := by
  have at_ : (hs.map Holding.slot)[i]? = some h.slot := by simp [own]
  have bound := (List.getElem?_eq_some_iff.mp found).1
  have phases : (hs.set i after).map Holding.phase = hs.map Holding.phase := by
    rw [List.map_set]
    exact set_own (by simp [own,phase])
  have at_backend : ∀ c other, ((limiters s).set b changed)[c]? = some other →
      (c = b ∧ other = changed) ∨ (c ≠ b ∧ (limiters s)[c]? = some other) := by
    intro c other inside
    by_cases same : c = b
    · subst c
      rw [List.getElem?_set_self bound] at inside
      exact .inl ⟨rfl,(Option.some.inj inside).symm⟩
    · rw [List.getElem?_set_ne (Ne.symm same)] at inside
      exact .inr ⟨same,inside⟩
  unfold Inv
  rw [phases,gate,limited,List.map_set]
  refine ⟨inv.gate,?_,?_,?_⟩
  · intro c other inside
    have total := tally_set (fun _ => occupies c) at_ after.slot
    rcases at_backend c other inside with ⟨rfl,rfl⟩ | ⟨different,kept⟩
    · have before := inv.active c lim found
      omega
    · have before := inv.active c other kept
      rw [others c different] at total
      omega
  · intro c other inside
    rcases at_backend c other inside with ⟨rfl,rfl⟩ | ⟨different,kept⟩
    · exact capped
    · exact inv.room c other kept
  · intro j c taken
    rw [List.length_set]
    by_cases same : j = i
    · subst j
      have now_ : after.slot = some c := by simpa [(List.getElem?_eq_some_iff.mp own).1] using taken
      refine ⟨by simp [own,holds],?_⟩
      by_cases known : c = b
      · rwa [known]
      · have before := others c known
        simp only [occupies,now_,BEq.rfl] at before
        exact (inv.ticket i c (by simp [own,beq_iff_eq.mp before.symm])).2
    · rw [List.getElem?_set_ne (Ne.symm same)] at taken
      exact inv.ticket j c taken

theorem occupies_other (different : c ≠ b) : occupies c (some b) = false := by
  simp [occupies,Ne.symm different]

theorem tryAcquire_accounted {hs : List Holding} (inv : Inv s hs) (own : hs[i]? = some h) (holds : h.phase = .holding)
    (free : h.slot = none) :
    Inv (exec i (.tryAcquire b) s).2
      (hs.set i {h with slot := if (exec i (.tryAcquire b) s).1 = true then some b else none}) := by
  cases known : s.backends[b]? with
  | none =>
    have refused : exec i (.tryAcquire b) s = (false,s) := by simp only [exec,onBackend,known]
    rw [refused]
    exact unchanged_accounted inv own rfl free.symm rfl rfl
  | some backend =>
    have found : (limiters s)[b]? = some backend.limiter := by simp [limiters,known]
    have reply : (exec i (.tryAcquire b) s).1 = backend.limiter.tryAcquire.1 := by simp only [exec,onBackend,known]
    have gate : (exec i (.tryAcquire b) s).2.gate = s.gate := onBackend_gate ..
    have limited : limiters (exec i (.tryAcquire b) s).2 = (limiters s).set b backend.limiter.tryAcquire.2 :=
      limiters_changed known ..
    rw [reply]
    by_cases spare : backend.limiter.active < backend.limiter.maxInFlight
    · have taken : backend.limiter.tryAcquire =
          (true,{backend.limiter with active := backend.limiter.active + 1}) := if_pos spare
      rw [taken] at limited ⊢
      refine slot_accounted inv own holds found rfl ?_ ?_ ?_ gate limited
      · intro c different
        simp only [if_true,free,occupies_other different]
        rfl
      · simp [occupies,free]
      · dsimp only
        omega
    · have full : backend.limiter.tryAcquire = (false,backend.limiter) := if_neg spare
      rw [full] at limited ⊢
      refine unchanged_accounted inv own rfl free.symm gate (limited.trans ?_)
      exact set_own found

theorem releaseSlot_accounted {hs : List Holding} (inv : Inv s hs) (own : hs[i]? = some h) (taken : h.slot = some b) :
    Inv (exec i (.releaseSlot b) s).2 (hs.set i {h with slot := none}) := by
  obtain ⟨held,bound⟩ := inv.ticket i b (by simp [own,taken])
  have held : h.phase = .holding := by simpa [own] using held
  have bound : b < s.backends.length := by simpa [limiters] using bound
  have known : s.backends[b]? = some s.backends[b] := List.getElem?_eq_getElem bound
  have found : (limiters s)[b]? = some s.backends[b].limiter := by simp [limiters,known]
  have gate : (exec i (.releaseSlot b) s).2.gate = s.gate := onBackend_gate ..
  have limited : limiters (exec i (.releaseSlot b) s).2 = (limiters s).set b s.backends[b].limiter.release :=
    limiters_changed known ..
  refine slot_accounted inv own held found rfl ?_ ?_ ?_ gate limited
  · intro c different
    rw [taken,occupies_other different]
    rfl
  · simp [occupies,taken,PerBackendLimiter.release]
  · have := inv.room b _ found
    simp only [PerBackendLimiter.release]
    omega

theorem exec_accounted (s : State) (hs : List Holding) (i : Nat) (h after : Holding) (op : Op) (inv : Inv s hs)
    (own : hs[i]? = some h) (booked : ledger.book h (.did op (exec i op s).1) = some after) :
    Inv (exec i op s).2 (hs.set i after) := by
  have at_ : (hs.map Holding.phase)[i]? = some h.phase := by simp [own]
  cases op with
  | now | nextCursor | record | publishAdmissionGauges =>
    cases Option.some.inj booked
    exact unchanged_accounted inv own rfl rfl rfl rfl
  | observedHealth | load =>
    cases Option.some.inj booked
    exact unchanged_accounted inv own rfl rfl (onBackend_gate ..) (limiters_kept _ _ _ _ fun _ => rfl)
  | allowRequest | report =>
    obtain ⟨-,rfl⟩ := entered booked
    exact unchanged_accounted inv own rfl rfl (onBackend_gate ..) (limiters_kept _ _ _ _ fun _ => rfl)
  | enterGate =>
    obtain ⟨idle,rfl⟩ := entered booked
    have free := slot_free inv own (by simp [idle])
    exact gate_accounted inv own rfl free rfl (entry_inv inv.gate (by rw [at_,idle]))
  | resumeGate =>
    obtain ⟨waits,rfl⟩ := entered booked
    have free := slot_free inv own (by simp [waits])
    exact gate_accounted inv own rfl free rfl (resume_inv inv.gate (by rw [at_,waits]))
  | releaseGate =>
    obtain ⟨⟨holds,free⟩,rfl⟩ := entered booked
    exact gate_accounted inv own rfl free rfl (release_inv inv.gate (by rw [at_,holds]))
  | tryAcquire b =>
    obtain ⟨⟨holds,free⟩,rfl⟩ := entered booked
    exact tryAcquire_accounted inv own holds free
  | releaseSlot b =>
    obtain ⟨taken,rfl⟩ := entered booked
    exact releaseSlot_accounted inv own taken

theorem answer_accounted (s : State) (hs : List Holding) (i : Nat) (h after : Holding) (point : Wait)
    (answer : point.Answer) (inv : Inv s hs) (own : hs[i]? = some h) (_ : ledger.allows h (.got point answer))
    (booked : ledger.book h (.got point answer) = some after) : Inv s (hs.set i after) := by
  have same : after.phase = h.phase ∧ after.slot = h.slot := by
    cases point with
    | writeChunk site chunk =>
      cases site with
      | sink => cases Option.some.inj booked; exact ⟨rfl,rfl⟩
      | gateway => cases Option.some.inj booked; exact ⟨rfl,rfl⟩
    | _ => cases Option.some.inj booked; exact ⟨rfl,rfl⟩
  exact unchanged_accounted inv own same.1 same.2 rfl rfl

theorem happen_limiters (event : Happening) (s : State) : limiters (happen event s) = limiters s := by
  cases event with
  | tick nanoseconds => rfl
  | probed b found => exact limiters_kept _ _ _ _ fun _ => rfl
  | setHealthForTest b forced => exact limiters_kept _ _ _ _ fun _ => rfl

theorem happen_gate (event : Happening) (s : State) : (happen event s).gate = s.gate := by
  cases event with
  | tick nanoseconds => rfl
  | probed b found => exact onBackend_gate ..
  | setHealthForTest b forced => exact onBackend_gate ..

theorem surround_accounted (s : State) (hs : List Holding) (event : Happening) (inv : Inv s hs) :
    Inv (happen event s) hs := by
  unfold Inv
  rw [happen_gate,happen_limiters]
  exact inv

theorem accounts (env : Env) : Accounts (host env) ledger {} (fun h _ => AtRest h) Inv where
  keeps := handleChat_keeps env
  allows := fun _ _ _ => trivial
  arrive := arrive_accounted
  exec := exec_accounted
  answer := answer_accounted
  surround := surround_accounted

theorem construct_accounted (cfg : Config) : Inv (construct cfg) [] := by
  have streams := cfg.server.maxConcurrentStreams.2
  have depth := cfg.server.queueDepth.2
  refine ⟨start_inv (by omega) depth.1,?_,?_,by simp⟩
  · intro b lim found
    simp only [limiters,construct,List.getElem?_map,Option.map_eq_some_iff] at found
    obtain ⟨_,⟨conf,_,rfl⟩,rfl⟩ := found
    rfl
  · intro b lim found
    simp only [limiters,construct,List.getElem?_map,Option.map_eq_some_iff] at found
    obtain ⟨_,⟨conf,_,rfl⟩,rfl⟩ := found
    have cap := conf.maxInFlight.2
    simp only [openBackend]
    omega

-- The configured ceilings never move.
def Ceilings (cfg : Config) (s : State) : Prop :=
  s.gate.maxConcurrent = cfg.server.maxConcurrentStreams.1 ∧
    (limiters s).map PerBackendLimiter.maxInFlight = cfg.backends.map fun conf => conf.maxInFlight.1

theorem onBackend_ceilings {R : Type} {s : State} {b : Nat} {fallback : R} {f : Backend → R × Backend}
    (fixed : Ceilings cfg s) (kept : ∀ backend, (f backend).2.limiter.maxInFlight = backend.limiter.maxInFlight) :
    Ceilings cfg (onBackend s b fallback f).2 := by
  refine ⟨(congrArg Gate.maxConcurrent (onBackend_gate ..)).trans fixed.1,Eq.trans ?_ fixed.2⟩
  simpa [limiters,Function.comp_def] using onBackend_kept (fun backend => backend.limiter.maxInFlight) s b fallback f kept

theorem exec_ceilings (i : Nat) (op : Op) (s : State) (fixed : Ceilings cfg s) : Ceilings cfg (exec i op s).2 := by
  cases op with
  | now | nextCursor | record | publishAdmissionGauges => exact fixed
  | enterGate => exact ⟨(entry_config s.gate i).1.trans fixed.1,fixed.2⟩
  | resumeGate => exact ⟨(resume_config s.gate i).1.trans fixed.1,fixed.2⟩
  | releaseGate => exact ⟨(release_config s.gate).1.trans fixed.1,fixed.2⟩
  | observedHealth | load | allowRequest | report | releaseSlot => exact onBackend_ceilings fixed fun _ => rfl
  | tryAcquire b =>
    apply onBackend_ceilings fixed
    intro backend
    dsimp only [PerBackendLimiter.tryAcquire]
    split <;> rfl

theorem happen_ceilings (event : Happening) (s : State) (fixed : Ceilings cfg s) : Ceilings cfg (happen event s) := by
  unfold Ceilings
  rw [happen_gate,happen_limiters]
  exact fixed

-- What the actions of a request so far leave in its hands; undefined as soon as
-- one of them broke the discipline of `book`.
def held (call : Call) : Option Holding := replay ledger {} call.trace

def inAttempt (b : Nat) (call : Call) : Bool := occupies b ((held call).bind Holding.slot)

theorem range_single (n c : Nat) : ((List.range n).map fun b => (occupies b (some c)).toNat).sum ≤ 1 := by
  have exact_ : ((List.range n).map fun b => (occupies b (some c)).toNat).sum = if c < n then 1 else 0 := by
    induction n with
    | zero => rfl
    | succ n ih =>
      rw [List.range_succ,List.map_append,List.sum_append,ih]
      by_cases same : c = n
      · simp [same,occupies]
      · have : (c < n + 1) = (c < n) := by simp; omega
        simp [this,occupies,same]
  rw [exact_]
  split <;> omega

-- A request is in at most one attempt, so the attempts on all backends together
-- are no more than the requests in one.
theorem attempts_within (n : Nat) (slots : List (Option Nat)) :
    ((List.range n).map fun b => slots.countP (occupies b)).sum ≤ slots.countP Option.isSome := by
  induction slots with
  | nil => simp
  | cons slot rest ih =>
    have split : ((List.range n).map fun b => (slot :: rest).countP (occupies b)).sum =
        ((List.range n).map fun b => rest.countP (occupies b)).sum +
          ((List.range n).map fun b => (occupies b slot).toNat).sum := by
      rw [← List.sum_map_add]
      congr 1
      apply List.map_congr_left
      intro b _
      rw [List.countP_cons]
      cases occupies b slot <;> rfl
    rw [split,List.countP_cons]
    cases slot with
    | none => simpa [occupies] using ih
    | some c =>
      have single := range_single n c
      simp only [Option.isSome_some,if_true]
      omega

theorem active_sum (inv : Inv s hs) : ((limiters s).map PerBackendLimiter.active).sum ≤ s.gate.inFlight := by
  have listed : (limiters s).map PerBackendLimiter.active =
      ((List.range (limiters s).length).map fun b => (hs.map Holding.slot).countP (occupies b)).map Nat.cast := by
    apply List.ext_getElem
    · simp
    · intro b inside _
      have bound : b < (limiters s).length := by simpa using inside
      have counted := inv.active b (limiters s)[b] (List.getElem?_eq_getElem bound)
      rw [tally_countP] at counted
      simpa using counted
  have within := attempts_within (limiters s).length (hs.map Holding.slot)
  have ticketed : (hs.map Holding.slot).countP Option.isSome ≤ tally (holdsSlot s.gate) (hs.map Holding.phase) := by
    rw [← tally_countP,tally_map,tally_map]
    apply tally_mono
    intro i h found taken
    obtain ⟨b,slot⟩ := Option.isSome_iff_exists.mp taken
    have holds := (inv.ticket i b (by simp [found,slot])).1
    rw [List.getElem?_map,found] at holds
    rw [Option.some.inj holds]
    rfl
  rw [listed,← Nat.cast_list_sum,inv.gate.slots]
  exact_mod_cast Nat.le_trans within ticketed

theorem backend_accounted (inv : Inv s hs) (ceilings : Ceilings cfg s) (configured : cfg.backends[b]? = some conf) :
    ∃ backend, s.backends[b]? = some backend ∧ backend.limiter.active ≤ conf.maxInFlight.1 ∧
      backend.limiter.active = Int.ofNat ((hs.map Holding.slot).countP (occupies b)) := by
  have cap := congrArg (·[b]?) ceilings.2
  simp only [limiters,List.getElem?_map,configured,Option.map_some] at cap
  cases known : s.backends[b]? with
  | none => simp [known] at cap
  | some backend =>
    have found : (limiters s)[b]? = some backend.limiter := by simp [limiters,known]
    have counted := inv.active b _ found
    have room := inv.room b _ found
    rw [known] at cap
    have cap : backend.limiter.maxInFlight = conf.maxInFlight.1 := by simpa using cap
    rw [tally_countP] at counted
    exact ⟨backend,rfl,by omega,counted⟩

-- With every request at rest nothing is taken.
theorem idle_accounted (inv : Inv s hs) (resting : ∀ h ∈ hs, AtRest h) :
    (∀ backend ∈ s.backends, backend.limiter.active = 0) ∧ s.gate.inFlight = 0 := by
  constructor
  · intro backend member
    obtain ⟨b,known⟩ := List.mem_iff_getElem?.mp member
    have counted := inv.active b backend.limiter (by simp [limiters,known])
    rw [counted,tally_map,tally_zero]
    · rfl
    · intro i h own
      have rest := resting h (List.mem_of_getElem? own)
      simp [rest.2.2.1,occupies]
  · rw [inv.gate.slots,tally_map,tally_zero]
    · rfl
    · intro i h own
      obtain ⟨waits,holds,_⟩ := resting h (List.mem_of_getElem? own)
      cases phase : h.phase <;> simp_all [holdsSlot]

theorem capacity_accounted (path : Reachable env Any w) :
    (∀ call ∈ w.threads, ∃ h, held call = some h ∧ (h.slot ≠ none → h.phase = .holding)) ∧
    (∀ b conf, env.cfg.backends[b]? = some conf → ∃ backend, w.shared.backends[b]? = some backend ∧
      0 ≤ backend.limiter.active ∧ backend.limiter.active ≤ conf.maxInFlight.1 ∧
      backend.limiter.active = Int.ofNat (w.threads.countP (inAttempt b))) ∧
    (w.shared.backends.map fun backend => backend.limiter.active).sum ≤ w.shared.gate.inFlight ∧
    w.shared.gate.inFlight ≤ env.cfg.server.maxConcurrentStreams.1 ∧
    ((∀ call ∈ w.threads, Finished call) →
      (∀ backend ∈ w.shared.backends, backend.limiter.active = 0) ∧ w.shared.gate.inFlight = 0) := by
  obtain ⟨hs,agree,inv⟩ := accounts_reached (accounts env) (fun _ _ _ _ _ _ _ _ _ _ _ => trivial)
    (construct_accounted env.cfg) path
  have ceilings : Ceilings env.cfg w.shared := reached_shared (host env) exec_ceilings happen_ceilings
    ⟨rfl,by simp [limiters,construct,openBackend,Function.comp_def]⟩ path
  have slots : w.threads.map (fun call => (held call).bind Holding.slot) = hs.map Holding.slot := by
    apply forall₂_map agree
    intro call h agrees
    rw [held,agrees.1]
    rfl
  refine ⟨?_,?_,?_,?_,?_⟩
  · intro call member
    obtain ⟨h,inside,agrees⟩ := forall₂_left agree member
    obtain ⟨i,own⟩ := List.mem_iff_getElem?.mp inside
    refine ⟨h,agrees.1,fun taken => ?_⟩
    by_contra outside
    exact taken (slot_free inv own outside)
  · intro b conf configured
    obtain ⟨backend,known,room,counted⟩ := backend_accounted inv ceilings configured
    rw [← slots,List.countP_map] at counted
    refine ⟨backend,known,?_,room,counted⟩
    rw [counted]
    exact Int.natCast_nonneg _
  · have total := active_sum inv
    simpa [limiters,Function.comp_def] using total
  · rw [← ceilings.1]
    exact inv.gate.cap
  · intro finished
    apply idle_accounted inv
    intro h member
    obtain ⟨call,inside,agrees⟩ := forall₂_right agree member
    obtain ⟨exit,code⟩ := finished call inside
    exact agrees.ended code

theorem capacity_accounted_probing : ∃ w, run (advance (host (sampleEnv ["a"]))) (opening (sampleEnv ["a"])) probing = some w ∧
    w.threads.countP (inAttempt 0) = 1 ∧
    ∃ backend, w.shared.backends[0]? = some backend ∧ backend.limiter.active = Int.ofNat (w.threads.countP (inAttempt 0)) := by
  have ran : (run (advance (host (sampleEnv ["a"]))) (opening (sampleEnv ["a"])) probing).map
      (fun w => w.threads.countP (inAttempt 0)) = some 1 := by decide +kernel
  obtain ⟨w,reached,counted⟩ := Option.map_eq_some_iff.mp ran
  have accounted := capacity_accounted (run_reached .initial reached)
  obtain ⟨backend,known,_,_,active⟩ := accounted.2.1 0 (serving "a") rfl
  exact ⟨w,reached,counted,backend,known,active⟩

end Kvmux.Capacity
