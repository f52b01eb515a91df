import Mathlib.Data.List.Nodup
import Mathlib.Data.List.TakeDrop
import Mathlib.Logic.Function.Basic
import ArmControl.Lib.Run
import ArmControl.Lib.Since

/-!
# ARM and DISARM requests (`RobotRuntime._request_authority`)

The loop thread hands link calls to one RPC worker and takes their outcomes back on its ticks.  A DISARM
that finds another one in flight is covered by it; otherwise it cancels the ARMs that wait and is queued.
Every future is read or changed in one access, and the worker may move between any two of them.

* `AuthorityRequests`, `step`   the loop thread's fields, the executor with its futures, and the log;
* `awaitAuthority`              what a client is told;
* `Sound`                       what each entry of the log promises, by the log before it;
* `authority_order`             the last requested authority wins.

A future is named by the generation of its request.  A call returns and its future is set in one step.
-/

namespace ArmControl.Supervisor
open Function History

/-- what a link call returned; an ARM returns `None` -/
inductive Reply where
  | confirmed
  | unconfirmed
  | raised (reason : String)
  deriving DecidableEq, Inhabited

/-- `fut.result() is not False` -/
@[simp] def Reply.ok : Reply → Bool
  | .confirmed => true
  | _ => false

def Reply.reason : Reply → String
  | .confirmed => ""
  | .unconfirmed => "DISARM not confirmed by the state stream"
  | .raised reason => reason

inductive Future where
  | queued
  | running
  | finished (r : Reply)
  | cancelled
  deriving DecidableEq, Inhabited

@[simp] def Future.done : Future → Bool
  | .finished _ | .cancelled => true
  | _ => false

/-- an entry of `_pending`; `want` asks for ARM (`enable_all`), otherwise for DISARM (`safe_stop`) -/
structure Pending where
  want : Bool
  gen : ℕ
  deriving DecidableEq, Inhabited

/-- inside `_request_authority(False)`: the entries still to look at, or to cancel -/
inductive RequestPc where
  | idle
  | checking (rest : List Pending)
  | cancelling (rest : List Pending)
  deriving DecidableEq, Inhabited

inductive Entry where
  | requested (p : Pending)
  /-- a DISARM that the one in flight covers -/
  | covered (gen : ℕ)
  /-- the generation an operation returns -/
  | answered (armed : Bool) (gen : ℕ)
  | cancelled (gen : ℕ)
  | started (gen : ℕ)
  | returned (gen : ℕ) (ok : Bool)
  deriving DecidableEq, Inhabited

/-- which request's future an entry is about -/
def Entry.about : Entry → Option ℕ
  | .cancelled gen | .started gen | .returned gen _ => some gen
  | _ => none

structure AuthorityRequests where
  futures : ℕ → Future := fun _ => .queued
  /-- the executor's queue, and what its worker runs -/
  queue : List Pending := []
  worker : Option Pending := none
  pending : List Pending := []
  authorityGen : ℕ := 0
  authorityDone : ℕ := 0
  authorityFailed : ℕ × String := (0, "")
  authorityFault : String := ""
  pc : RequestPc := .idle
  log : List Entry := []

/-- `armed` is the controller's flag -/
inductive AuthorityEvent where
  | arm (armed : Bool)
  /-- a DISARM from the controller: an operation, its own stop -/
  | disarm
  /-- the loop thread goes on inside `_request_authority(False)` -/
  | proceed
  | drain (armed : Bool)
  | take
  | ret (r : Reply)
  deriving DecidableEq, Inhabited

namespace AuthorityRequests

/-- `_rpc.submit(work)` under the next generation -/
def submit (s : AuthorityRequests) (armed : Bool) : AuthorityRequests :=
  let p : Pending := { want := armed, gen := s.authorityGen + 1 }
  { s with
    authorityGen := s.authorityGen + 1
    futures := update s.futures p.gen .queued
    queue := s.queue ++ [p]
    pending := s.pending ++ [p]
    pc := .idle
    log := s.log ++ [.requested p] ++ [.answered armed p.gen] }

/-- `fut.cancel()`: only a queued future -/
def cancel (s : AuthorityRequests) (gen : ℕ) : AuthorityRequests :=
  if s.futures gen = .queued then
    { s with futures := update s.futures gen .cancelled, log := s.log ++ [.cancelled gen] }
  else s

def proceed (s : AuthorityRequests) : AuthorityRequests :=
  match s.pc with
  | .idle => s
  | .checking [] => { s with pc := .cancelling s.pending }
  | .checking (p :: rest) =>
    if !p.want && !(s.futures p.gen).done then
      -- one DISARM in flight covers this one
      { s with pc := .idle, log := s.log ++ [.covered p.gen] ++ [.answered false s.authorityGen] }
    else { s with pc := .checking rest }
  | .cancelling [] => s.submit false
  | .cancelling (p :: rest) => { (if p.want then s.cancel p.gen else s) with pc := .cancelling rest }

/-- `_arm` -/
def arm (s : AuthorityRequests) (armed : Bool) : AuthorityRequests :=
  -- "a DISARM is still being confirmed; ARM after it completes"
  if s.pending.any fun p => !p.want then s
  else if armed then { s with log := s.log ++ [.answered true s.authorityGen] }
  else s.submit true

/-- one round of `_drain_authority` -/
def drain (s : AuthorityRequests) (armed : Bool) : AuthorityRequests :=
  match s.pending with
  | [] => s
  | p :: rest =>
    match s.futures p.gen with
    | .cancelled => { s with pending := rest }
    | .finished r =>
      { s with
        pending := rest, authorityDone := p.gen, authorityFault := if r.ok then "" else r.reason
        authorityFailed := if r.ok then s.authorityFailed else (p.gen, r.reason)
        pc := if p.want && !r.ok && armed then .checking rest else .idle }
    | _ => s

/-- the worker takes its next work item -/
def take (s : AuthorityRequests) : AuthorityRequests :=
  match s.worker, s.queue with
  | none, p :: queue =>
    if s.futures p.gen = .cancelled then { s with queue := queue }
    else
      { s with
        queue := queue, worker := some p, futures := update s.futures p.gen .running
        log := s.log ++ [.started p.gen] }
  | _, _ => s

def ret (s : AuthorityRequests) (r : Reply) : AuthorityRequests :=
  match s.worker with
  | none => s
  | some p =>
    { s with
      worker := none, futures := update s.futures p.gen (.finished r)
      log := s.log ++ [.returned p.gen r.ok] }

/-- the loop thread starts a request only outside the one under way -/
def step (s : AuthorityRequests) : AuthorityEvent → AuthorityRequests
  | .arm armed => if s.pc = .idle then s.arm armed else s
  | .disarm => if s.pc = .idle then { s with pc := .checking s.pending } else s
  | .proceed => s.proceed
  | .drain armed => if s.pc = .idle then s.drain armed else s
  | .take => s.take
  | .ret r => s.ret r

def run : AuthorityRequests → List AuthorityEvent → AuthorityRequests := Run.run step

/-- `await_authority`: `none` waits on; `lifecycleArmed` and `ready` are what was last published -/
def awaitAuthority (s : AuthorityRequests) (gen : ℕ) (armed lifecycleArmed ready : Bool) :
    Option (Except String Unit) :=
  let settled :=
    decide (gen ≤ s.authorityFailed.1) ||
      if armed then lifecycleArmed && ready else decide (gen ≤ s.authorityDone) && !lifecycleArmed
  if settled = false then none
  else if gen ≤ s.authorityFailed.1 then some (.error s.authorityFailed.2)
  else some (.ok ())

/-! ## the log -/

/-- the requests that were queued, in order -/
def requests (log : List Entry) : List Pending :=
  log.filterMap fun
    | .requested p => some p
    | _ => none

/-- the link calls, in order -/
def calls (log : List Entry) : List ℕ :=
  log.filterMap fun
    | .started gen => some gen
    | _ => none

/-- the generations of `l` whose requests were not cancelled -/
def kept (log : List Entry) (l : List Pending) : List ℕ :=
  (l.filter fun p => .cancelled p.gen ∉ log).map (·.gen)

/-- the entry is right by the log before it -/
def Sound (log : List Entry) : Entry → Prop
  | .requested p =>
    ∀ q ∈ requests log, q.gen < p.gen ∧
      (p.want = true → q.want = false → ∃ ok, .returned q.gen ok ∈ log)
  | .covered gen =>
    .requested ⟨false, gen⟩ ∈ log ∧ (∀ ok, .returned gen ok ∉ log) ∧
      ∀ q ∈ requests log, q.want = true → q.gen < gen
  | .answered false gen => .requested ⟨false, gen⟩ ∈ log
  | .answered true _ => True
  | .cancelled gen => .requested ⟨true, gen⟩ ∈ log ∧ .started gen ∉ log
  | .started gen =>
    (∃ want, .requested ⟨want, gen⟩ ∈ log) ∧ .cancelled gen ∉ log ∧ ∀ g ∈ calls log, g < gen ∧ ∃ ok, .returned g ok ∈ log
  | .returned gen _ => .started gen ∈ log

variable {s t : AuthorityRequests} {p q : Pending} {log : List Entry} {e : Entry} {gen : ℕ}

@[simp] theorem requests_append (a b : List Entry) : requests (a ++ b) = requests a ++ requests b :=
  List.filterMap_append

@[simp] theorem calls_append (a b : List Entry) : calls (a ++ b) = calls a ++ calls b :=
  List.filterMap_append

theorem mem_requests : p ∈ requests log ↔ .requested p ∈ log := by
  unfold requests
  rw [List.mem_filterMap]
  constructor
  · rintro ⟨e, he, h⟩
    cases e with
    | requested q =>
      cases h
      exact he
    | _ => cases h
  · intro h
    exact ⟨_, h, rfl⟩

theorem mem_calls : gen ∈ calls log ↔ .started gen ∈ log := by
  unfold calls
  rw [List.mem_filterMap]
  constructor
  · rintro ⟨e, he, h⟩
    cases e with
    | started g =>
      cases h
      exact he
    | _ => cases h
  · intro h
    exact ⟨_, h, rfl⟩

theorem kept_congr {log' : List Entry} {l : List Pending}
    (h : ∀ p ∈ l, .cancelled p.gen ∈ log' ↔ .cancelled p.gen ∈ log) : kept log' l = kept log l := by
  unfold kept
  congr 1
  exact List.filter_congr fun p hp => decide_eq_decide.mpr (not_congr (h p hp))

/-! ## the invariant -/

/-- the future of a request and the log agree -/
def Fits (s : AuthorityRequests) (p : Pending) : Prop :=
  match s.futures p.gen with
  | .queued => .cancelled p.gen ∉ s.log ∧ .started p.gen ∉ s.log ∧ ∀ ok, .returned p.gen ok ∉ s.log
  | .cancelled =>
    p.want = true ∧ .cancelled p.gen ∈ s.log ∧ .started p.gen ∉ s.log ∧ ∀ ok, .returned p.gen ok ∉ s.log
  | .running =>
    s.worker = some p ∧ .cancelled p.gen ∉ s.log ∧ .started p.gen ∈ s.log ∧
      ∀ ok, .returned p.gen ok ∉ s.log
  | .finished r => .cancelled p.gen ∉ s.log ∧ .started p.gen ∈ s.log ∧ .returned p.gen r.ok ∈ s.log

/-- a request taken back: a failure is remembered -/
def Drained (s : AuthorityRequests) (p : Pending) : Prop :=
  (s.futures p.gen).done = true ∧
    ∀ r, s.futures p.gen = .finished r → r.ok = false → p.gen ≤ s.authorityFailed.1

/-- a DISARM request under way has met no DISARM in flight so far -/
def Underway (s : AuthorityRequests) : Prop :=
  match s.pc with
  | .idle => True
  | .checking rest => ∃ seen, s.pending = seen ++ rest ∧
      ∀ p ∈ seen, p.want = false → (s.futures p.gen).done = true
  | .cancelling rest => (∀ p ∈ s.pending, p.want = false → (s.futures p.gen).done = true) ∧
      ∀ p ∈ rest, p ∈ s.pending

structure Inv (s : AuthorityRequests) : Prop where
  sound : Justified Sound s.log
  sorted : (requests s.log).Pairwise fun p q => p.gen < q.gen
  bounds : ∀ p ∈ requests s.log, 0 < p.gen ∧ p.gen ≤ s.authorityGen
  newest : requests s.log ≠ [] → ∃ p ∈ requests s.log, p.gen = s.authorityGen
  fits : ∀ p ∈ requests s.log, Fits s p
  worker : ∀ p, s.worker = some p → p ∈ requests s.log ∧ s.futures p.gen = .running
  queue : ∃ taken, requests s.log = taken ++ s.queue ∧ (∀ p ∈ taken, s.futures p.gen ≠ .queued) ∧
    (∀ p ∈ s.queue, s.futures p.gen = .queued ∨ s.futures p.gen = .cancelled) ∧
    kept s.log taken = calls s.log
  drained : ∃ drained, requests s.log = drained ++ s.pending ∧ ∀ p ∈ drained, Drained s p
  doneGen : s.authorityDone ≤ s.authorityGen ∧ ∀ p ∈ s.pending, s.authorityDone < p.gen
  /-- a DISARM in flight is the latest request -/
  latest : ∀ p ∈ requests s.log, p.want = false → (s.futures p.gen).done = false →
    ∀ q ∈ requests s.log, q.gen ≤ p.gen
  underway : Underway s

theorem Inv.eq_of_gen (h : Inv s) (hp : p ∈ requests s.log) (hq : q ∈ requests s.log)
    (he : p.gen = q.gen) : p = q := by
  have hnd : ((requests s.log).map (·.gen)).Nodup := by
    rw [List.Nodup, List.pairwise_map]
    exact h.sorted.imp fun hlt => Nat.ne_of_lt hlt
  exact List.inj_on_of_nodup_map hnd hp hq he

theorem Inv.of_pending (h : Inv s) (hp : p ∈ s.pending) : p ∈ requests s.log := by
  obtain ⟨d, hd, -⟩ := h.drained
  rw [hd]
  exact List.mem_append_right _ hp

theorem Inv.of_queue (h : Inv s) (hp : p ∈ s.queue) : p ∈ requests s.log := by
  obtain ⟨d, hd, -⟩ := h.queue
  rw [hd]
  exact List.mem_append_right _ hp

theorem Fits.frame (h : Fits s p) (hf : t.futures p.gen = s.futures p.gen)
    (hl : ∀ e, e.about = some p.gen → (e ∈ t.log ↔ e ∈ s.log))
    (hw : s.worker = some p → t.worker = some p) : Fits t p := by
  have h1 := hl (.cancelled p.gen) rfl
  have h2 := hl (.started p.gen) rfl
  have h3 := fun ok => hl (.returned p.gen ok) rfl
  unfold Fits at h ⊢
  rw [hf, h1, h2]
  cases hfut : s.futures p.gen with
  | queued =>
    rw [hfut] at h
    exact ⟨h.1, h.2.1, fun ok hr => h.2.2 ok ((h3 ok).mp hr)⟩
  | running =>
    rw [hfut] at h
    exact ⟨hw h.1, h.2.1, h.2.2.1, fun ok hr => h.2.2.2 ok ((h3 ok).mp hr)⟩
  | finished r =>
    rw [hfut] at h
    exact ⟨h.1, h.2.1, (h3 _).mpr h.2.2⟩
  | cancelled =>
    rw [hfut] at h
    exact ⟨h.1, h.2.1, h.2.2.1, fun ok hr => h.2.2.2 ok ((h3 ok).mp hr)⟩

/-- every entry about a future is about a request's -/
theorem Inv.about (h : Inv s) (he : e ∈ s.log) (hg : e.about = some gen) :
    ∃ p ∈ requests s.log, p.gen = gen := by
  have hstarted : ∀ log', log' <+: s.log → .started gen ∈ log' → ∃ p ∈ requests s.log, p.gen = gen := by
    intro log' hpre hs
    obtain ⟨post, hpost⟩ := hpre
    obtain ⟨a, b, rfl⟩ := List.append_of_mem hs
    obtain ⟨⟨want, hw⟩, -⟩ := h.sound a (.started gen) (b ++ post) (by rw [← hpost]; simp)
    refine ⟨⟨want, gen⟩, mem_requests.mpr ?_, rfl⟩
    rw [← hpost]
    simp [hw]
  obtain ⟨a, b, hab⟩ := List.append_of_mem he
  have hs := h.sound a e b hab
  cases e with
  | cancelled g =>
    cases hg
    refine ⟨⟨true, gen⟩, mem_requests.mpr ?_, rfl⟩
    rw [hab]
    exact List.mem_append_left _ hs.1
  | started g =>
    cases hg
    exact hstarted s.log (List.prefix_refl _) he
  | returned g ok =>
    cases hg
    refine hstarted a ⟨_, hab.symm⟩ hs
  | requested q => cases hg
  | covered g => cases hg
  | answered armed g => cases hg

/-! ## one access -/

theorem inv_initial : Inv {} where
  sound := justified_nil
  sorted := List.Pairwise.nil
  bounds := by simp [requests]
  newest := by simp [requests]
  fits := by simp [requests]
  worker := by simp
  queue := ⟨[], rfl, by simp, by simp, rfl⟩
  drained := ⟨[], rfl, by simp⟩
  doneGen := ⟨le_rfl, by simp⟩
  latest := by simp [requests]
  underway := trivial

theorem Inv.setPc (h : Inv s) (pc : RequestPc) (hu : Underway { s with pc := pc }) :
    Inv { s with pc := pc } :=
  { h with fits := h.fits, drained := h.drained, underway := hu }

theorem mem_snoc {e' : Entry} (h : e'.about ≠ e.about) : e' ∈ log ++ [e] ↔ e' ∈ log := by
  rw [List.mem_append, List.mem_singleton]
  refine or_iff_left ?_
  rintro rfl
  exact h rfl

/-- an entry about no future -/
theorem Inv.note (h : Inv s) (ha : e.about = none) (hr : requests [e] = []) (hs : Sound s.log e) :
    Inv { s with log := s.log ++ [e] } := by
  have hreq : requests (s.log ++ [e]) = requests s.log := by rw [requests_append, hr, List.append_nil]
  have hcalls : calls (s.log ++ [e]) = calls s.log := by
    cases e with
    | started g => cases ha
    | _ => exact (calls_append _ _).trans (List.append_nil _)
  obtain ⟨taken, hq, hnq, hqs, hcs⟩ := h.queue
  have hkept : kept (s.log ++ [e]) taken = kept s.log taken :=
    kept_congr fun p _ => mem_snoc (by rw [ha]; exact Option.some_ne_none _)
  refine ⟨h.sound.snoc hs, ?_, ?_, ?_, ?_, ?_, ⟨taken, ?_, hnq, hqs, hkept.trans (hcs.trans hcalls.symm)⟩,
    ?_, h.doneGen, ?_, h.underway⟩
  all_goals dsimp only
  all_goals rw [hreq]
  · exact h.sorted
  · exact h.bounds
  · exact h.newest
  · intro p hp
    exact (h.fits p hp).frame rfl (fun e' he' => mem_snoc (by rw [ha, he']; exact Option.some_ne_none _)) id
  · exact h.worker
  · exact hq
  · exact h.drained
  · exact h.latest

/-- the future of one request changes, and the log says so -/
theorem Inv.future (h : Inv s) (hp : p ∈ requests s.log) (ha : e.about = some p.gen) {f : Future}
    {worker : Option Pending} {queue : List Pending} (hs : Sound s.log e)
    (hfit : Fits { s with futures := update s.futures p.gen f, worker := worker, log := s.log ++ [e] } p)
    (hw : ∀ q, worker = some q → q = p ∧ f = .running ∨ s.worker = some q ∧ q.gen ≠ p.gen)
    (hwas : ∀ q, s.worker = some q → q = p ∨ worker = some q)
    (hdone : (s.futures p.gen).done = false)
    (hqueue : ∃ taken, requests s.log = taken ++ queue ∧
      (∀ q ∈ taken, update s.futures p.gen f q.gen ≠ .queued) ∧
      (∀ q ∈ queue, update s.futures p.gen f q.gen = .queued ∨ update s.futures p.gen f q.gen = .cancelled) ∧
      kept (s.log ++ [e]) taken = calls (s.log ++ [e])) :
    Inv { s with
      futures := update s.futures p.gen f, worker := worker, queue := queue, log := s.log ++ [e] } := by
  have hreq : requests (s.log ++ [e]) = requests s.log := by
    cases e with
    | requested q => cases ha
    | _ => exact (requests_append _ _).trans (List.append_nil _)
  have hother : ∀ q ∈ requests s.log, q = p ∨ (q.gen ≠ p.gen ∧
      update s.futures p.gen f q.gen = s.futures q.gen) := by
    intro q hq
    by_cases hg : q.gen = p.gen
    · exact .inl (h.eq_of_gen hq hp hg)
    · exact .inr ⟨hg, update_of_ne hg _ _⟩
  -- what is done stays done
  have hstays : ∀ q ∈ requests s.log, (s.futures q.gen).done = true →
      update s.futures p.gen f q.gen = s.futures q.gen := by
    intro q hq hd
    rcases hother q hq with rfl | ⟨-, he⟩
    · rw [hd] at hdone
      cases hdone
    · exact he
  obtain ⟨d, hpd, hdr⟩ := h.drained
  refine ⟨h.sound.snoc hs, ?_, ?_, ?_, ?_, ?_, ?_, ⟨d, ?_, ?_⟩, h.doneGen, ?_, ?_⟩
  · dsimp only
    rw [hreq]
    exact h.sorted
  · dsimp only
    rw [hreq]
    exact h.bounds
  · dsimp only
    rw [hreq]
    exact h.newest
  · dsimp only
    rw [hreq]
    intro q hq
    rcases hother q hq with rfl | ⟨hg, he⟩
    · exact hfit
    · refine (h.fits q hq).frame he (fun e' he' => mem_snoc ?_) fun hwq => ?_
      · rw [ha, he']
        exact fun hse => hg (Option.some.inj hse)
      · rcases hwas q hwq with rfl | hwq
        · exact absurd rfl hg
        · exact hwq
  · dsimp only
    rw [hreq]
    intro q hq
    rcases hw q hq with ⟨rfl, rfl⟩ | ⟨hwq, hg⟩
    · exact ⟨hp, update_self _ _ _⟩
    · obtain ⟨hqr, hrun⟩ := h.worker q hwq
      exact ⟨hqr, (update_of_ne hg _ _).trans hrun⟩
  · dsimp only
    rw [hreq]
    exact hqueue
  · dsimp only
    rw [hreq]
    exact hpd
  · intro q hq
    have hqr : q ∈ requests s.log := hpd ▸ List.mem_append_left _ hq
    have he := hstays q hqr (hdr q hq).1
    unfold Drained
    dsimp only
    rw [he]
    exact hdr q hq
  · dsimp only
    rw [hreq]
    intro q hq hwant hd
    rcases hother q hq with rfl | ⟨-, he⟩
    · exact h.latest q hq hwant hdone
    · rw [he] at hd
      exact h.latest q hq hwant hd
  · have hu := h.underway
    have hkeeps : ∀ q ∈ s.pending, (s.futures q.gen).done = true →
        (update s.futures p.gen f q.gen).done = true := fun q hq hd => by
      rw [hstays q (h.of_pending hq) hd]
      exact hd
    unfold Underway at hu ⊢
    dsimp only
    cases hpc : s.pc with
    | idle => trivial
    | checking rest =>
      rw [hpc] at hu
      obtain ⟨seen, hseen, hd⟩ := hu
      exact ⟨seen, hseen, fun q hq hwant =>
        hkeeps q (hseen ▸ List.mem_append_left _ hq) (hd q hq hwant)⟩
    | cancelling rest =>
      rw [hpc] at hu
      exact ⟨fun q hq hwant => hkeeps q hq (hu.1 q hq hwant), hu.2⟩

/-- a request is queued: no DISARM is in flight -/
theorem Inv.submit (h : Inv s) {armed : Bool}
    (hd : ∀ p ∈ requests s.log, p.want = false → (s.futures p.gen).done = true) :
    Inv (s.submit armed) := by
  obtain ⟨p, hp⟩ : ∃ p : Pending, p = { want := armed, gen := s.authorityGen + 1 } := ⟨_, rfl⟩
  have hgen : p.gen = s.authorityGen + 1 := by rw [hp]
  have hlt : ∀ q ∈ requests s.log, q.gen < p.gen := fun q hq => by
    rw [hgen]
    exact Nat.lt_succ_of_le (h.bounds q hq).2
  have hreq : requests (s.log ++ [Entry.requested p]) = requests s.log ++ [p] := requests_append _ _
  have hcalls : calls (s.log ++ [Entry.requested p]) = calls s.log :=
    (calls_append _ _).trans (List.append_nil _)
  have hmem : ∀ q ∈ requests s.log ++ [p], q ∈ requests s.log ∨ q = p := fun q hq => by
    rwa [List.mem_append, List.mem_singleton] at hq
  have hsame : ∀ e : Entry, e.about ≠ none → (e ∈ s.log ++ [Entry.requested p] ↔ e ∈ s.log) :=
    fun e he => mem_snoc he
  have hnew : ∀ e : Entry, e.about = some p.gen → e ∉ s.log ++ [Entry.requested p] := by
    intro e he hin
    rw [hsame e (by rw [he]; exact Option.some_ne_none _)] at hin
    obtain ⟨q, hq, hqg⟩ := h.about hin he
    exact Nat.lt_irrefl _ (hqg ▸ hlt q hq)
  have hold : ∀ q ∈ requests s.log, update s.futures p.gen .queued q.gen = s.futures q.gen :=
    fun q hq => update_of_ne (Nat.ne_of_lt (hlt q hq)) _ _
  obtain ⟨taken, hq, hnq, hqs, hcs⟩ := h.queue
  obtain ⟨d, hpd, hdr⟩ := h.drained
  have hinv : Inv { s with
      authorityGen := s.authorityGen + 1, futures := update s.futures p.gen .queued
      queue := s.queue ++ [p], pending := s.pending ++ [p], pc := .idle
      log := s.log ++ [Entry.requested p] } := by
    refine ⟨h.sound.snoc ?_, ?_, ?_, ?_, ?_, ?_, ⟨taken, ?_, ?_, ?_, ?_⟩, ⟨d, ?_, ?_⟩, ⟨?_, ?_⟩, ?_, trivial⟩
    · intro q hqr
      refine ⟨hlt q hqr, fun _ hw => ?_⟩
      have hfit := h.fits q hqr
      have hdone := hd q hqr hw
      unfold Fits at hfit
      cases hf : s.futures q.gen with
      | finished r =>
        rw [hf] at hfit
        exact ⟨_, hfit.2.2⟩
      | cancelled =>
        rw [hf, hw] at hfit
        cases hfit.1
      | _ =>
        rw [hf] at hdone
        cases hdone
    all_goals try dsimp only
    · rw [hreq, List.pairwise_append]
      refine ⟨h.sorted, List.pairwise_singleton _ _, fun q hqr q' hq' => ?_⟩
      rw [List.mem_singleton.mp hq']
      exact hlt q hqr
    · intro q hqr
      rcases hmem q (hreq ▸ hqr) with hqr | rfl
      · exact ⟨(h.bounds q hqr).1, Nat.le_succ_of_le (h.bounds q hqr).2⟩
      · exact ⟨hgen ▸ Nat.succ_pos _, hgen.le⟩
    · intro _
      exact ⟨p, hreq ▸ List.mem_append_right _ (List.mem_singleton_self p), hgen⟩
    · intro q hqr
      rcases hmem q (hreq ▸ hqr) with hqr | rfl
      · refine (h.fits q hqr).frame (hold q hqr) (fun e he => hsame e ?_) id
        rw [he]
        exact Option.some_ne_none _
      · unfold Fits
        dsimp only
        rw [update_self]
        exact ⟨hnew _ rfl, hnew _ rfl, fun ok => hnew _ rfl⟩
    · intro q hwq
      obtain ⟨hqr, hf⟩ := h.worker q hwq
      rw [hreq, hold q hqr]
      exact ⟨List.mem_append_left _ hqr, hf⟩
    · rw [hreq, hq, List.append_assoc]
    · intro q hqt
      rw [hold q (hq ▸ List.mem_append_left _ hqt)]
      exact hnq q hqt
    · intro q hqq
      rcases List.mem_append.mp hqq with hqq | hqq
      · rw [hold q (h.of_queue hqq)]
        exact hqs q hqq
      · rw [List.mem_singleton.mp hqq, update_self]
        exact .inl rfl
    · rw [hcalls, ← hcs]
      exact kept_congr fun q _ => hsame _ (Option.some_ne_none _)
    · rw [hreq, hpd, List.append_assoc]
    · intro q hqd
      unfold Drained
      dsimp only
      rw [hold q (hpd ▸ List.mem_append_left _ hqd)]
      exact hdr q hqd
    · exact Nat.le_succ_of_le h.doneGen.1
    · intro q hqp
      rcases List.mem_append.mp hqp with hqp | hqp
      · exact h.doneGen.2 q hqp
      · rw [List.mem_singleton.mp hqp, hgen]
        exact Nat.lt_succ_of_le h.doneGen.1
    · intro q hqr hw hnd q' hqr'
      rcases hmem q (hreq ▸ hqr) with hqr | rfl
      · rw [hold q hqr, hd q hqr hw] at hnd
        cases hnd
      · rcases hmem q' (hreq ▸ hqr') with hqr' | rfl
        · exact (hlt q' hqr').le
        · exact le_rfl
  have hnote := hinv.note (e := .answered armed p.gen) rfl rfl (by
    cases armed with
    | true => trivial
    | false =>
      rw [hp]
      exact List.mem_append_right _ (List.mem_singleton_self _))
  rw [hp] at hnote
  exact hnote

theorem Inv.cancel (h : Inv s) (hp : p ∈ s.pending) (hw : p.want = true) : Inv (s.cancel p.gen) := by
  unfold AuthorityRequests.cancel
  by_cases hf : s.futures p.gen = .queued
  · rw [if_pos hf]
    have hpr := h.of_pending hp
    have hfit := h.fits p hpr
    unfold Fits at hfit
    rw [hf] at hfit
    obtain ⟨taken, hq, hnq, hqs, hcs⟩ := h.queue
    have hsub : ∀ q ∈ taken, q.gen ≠ p.gen := by
      intro q hqt hg
      exact hnq q hqt (by rw [hg]; exact hf)
    refine h.future (e := .cancelled p.gen) hpr rfl ⟨?_, hfit.2.1⟩ ?_ ?_ (fun q hwq => .inr hwq)
      (by rw [hf]; rfl) ⟨taken, hq, ?_, ?_, ?_⟩
    · have hreq := mem_requests.mp hpr
      rwa [show p = ⟨true, p.gen⟩ from by rw [← hw]] at hreq
    · unfold Fits
      dsimp only
      rw [update_self]
      refine ⟨hw, List.mem_append_right _ (List.mem_singleton_self _), ?_, ?_⟩
      · simpa using hfit.2.1
      · simpa using hfit.2.2
    · intro q hwq
      obtain ⟨hqr, hrun⟩ := h.worker q hwq
      refine .inr ⟨hwq, fun hg => ?_⟩
      rw [hg, hf] at hrun
      cases hrun
    · intro q hqt
      rw [update_of_ne (hsub q hqt)]
      exact hnq q hqt
    · intro q hqq
      by_cases hg : q.gen = p.gen
      · rw [hg, update_self]
        exact .inr rfl
      · rw [update_of_ne hg]
        exact hqs q hqq
    · rw [calls_append, show calls [Entry.cancelled p.gen] = [] from rfl, List.append_nil, ← hcs]
      refine kept_congr fun q hqt => ?_
      rw [List.mem_append, List.mem_singleton]
      exact or_iff_left fun he => hsub q hqt (Entry.cancelled.inj he)
  · rw [if_neg hf]
    exact h

theorem Inv.take (h : Inv s) : Inv s.take := by
  cases hwk : s.worker with
  | some w =>
    rw [show s.take = s by simp only [AuthorityRequests.take, hwk]]
    exact h
  | none =>
    cases hqu : s.queue with
    | nil =>
      rw [show s.take = s by simp only [AuthorityRequests.take, hwk, hqu]]
      exact h
    | cons p rest =>
      have hpr : p ∈ requests s.log := h.of_queue (by rw [hqu]; exact List.mem_cons_self)
      have hfit := h.fits p hpr
      unfold Fits at hfit
      obtain ⟨taken, hq, hnq, hqs, hcs⟩ := h.queue
      rw [hqu] at hq hqs
      have hq' : requests s.log = (taken ++ [p]) ++ rest := by rw [hq, List.append_assoc]; rfl
      by_cases hf : s.futures p.gen = .cancelled
      · -- a cancelled work item is dropped
        rw [show s.take = { s with queue := rest } by
          simp only [AuthorityRequests.take, hwk, hqu]
          rw [if_pos hf]]
        rw [hf] at hfit
        refine { h with
          fits := h.fits, drained := h.drained, underway := h.underway
          queue := ⟨taken ++ [p], hq', ?_, fun q hqr => hqs q (List.mem_cons_of_mem _ hqr), ?_⟩ }
        · intro q hqt
          rcases List.mem_append.mp hqt with hqt | hqt
          · exact hnq q hqt
          · rw [List.mem_singleton.mp hqt, hf]
            exact Future.noConfusion
        · rw [← hcs]
          unfold kept
          rw [List.filter_append, List.map_append]
          simp [hfit.2.1]
      · rw [show s.take = { s with
            queue := rest, worker := some p, futures := update s.futures p.gen .running
            log := s.log ++ [Entry.started p.gen] } by
          simp only [AuthorityRequests.take, hwk, hqu]
          rw [if_neg hf]]
        have hqd : s.futures p.gen = .queued := (hqs p List.mem_cons_self).resolve_right hf
        rw [hqd] at hfit
        have hreq := mem_requests.mp hpr
        have hlt : ∀ q ∈ taken, q.gen < p.gen := by
          intro q hqt
          have hs := h.sorted
          rw [hq, List.pairwise_append] at hs
          exact hs.2.2 q hqt p List.mem_cons_self
        refine h.future (e := .started p.gen) hpr rfl ⟨⟨p.want, hreq⟩, hfit.1, ?_⟩ ?_
          (fun q hwq => .inl ⟨(Option.some.inj hwq).symm, rfl⟩) (fun q hwq => ?_) (by rw [hqd]; rfl)
          ⟨taken ++ [p], hq', ?_, ?_, ?_⟩
        · -- every earlier call has returned: the worker is free
          intro g hg
          rw [← hcs] at hg
          obtain ⟨q, hqf, rfl⟩ := List.mem_map.mp hg
          obtain ⟨hqt, hnc⟩ := List.mem_filter.mp hqf
          refine ⟨hlt q hqt, ?_⟩
          have hqfit := h.fits q (hq ▸ List.mem_append_left _ hqt)
          unfold Fits at hqfit
          cases hfq : s.futures q.gen with
          | queued => exact absurd hfq (hnq q hqt)
          | cancelled =>
            rw [hfq] at hqfit
            exact absurd hqfit.2.1 (by simpa using hnc)
          | running =>
            rw [hfq, hwk] at hqfit
            cases hqfit.1
          | finished r =>
            rw [hfq] at hqfit
            exact ⟨_, hqfit.2.2⟩
        · unfold Fits
          dsimp only
          rw [update_self]
          refine ⟨rfl, ?_, List.mem_append_right _ (List.mem_singleton_self _), ?_⟩
          · simpa using hfit.1
          · simpa using hfit.2.2
        · rw [hwk] at hwq
          cases hwq
        · intro q hqt
          rcases List.mem_append.mp hqt with hqt | hqt
          · rw [update_of_ne (Nat.ne_of_lt (hlt q hqt))]
            exact hnq q hqt
          · rw [List.mem_singleton.mp hqt, update_self]
            exact Future.noConfusion
        · intro q hqr
          have hs := h.sorted
          rw [hq', List.pairwise_append] at hs
          rw [update_of_ne (Nat.ne_of_gt (hs.2.2 p (by simp) q hqr))]
          exact hqs q (List.mem_cons_of_mem _ hqr)
        · have hsame : kept (s.log ++ [Entry.started p.gen]) taken = kept s.log taken :=
            kept_congr fun q _ => by simp
          rw [calls_append, ← hcs, ← hsame]
          unfold kept
          rw [List.filter_append, List.map_append]
          simp [hfit.1, calls]

theorem Inv.ret (h : Inv s) {r : Reply} : Inv (s.ret r) := by
  cases hwk : s.worker with
  | none =>
    rw [show s.ret r = s by simp only [AuthorityRequests.ret, hwk]]
    exact h
  | some p =>
    rw [show s.ret r = { s with
        worker := none, futures := update s.futures p.gen (.finished r)
        log := s.log ++ [Entry.returned p.gen r.ok] } by simp only [AuthorityRequests.ret, hwk]]
    obtain ⟨hpr, hrun⟩ := h.worker p hwk
    have hfit := h.fits p hpr
    unfold Fits at hfit
    rw [hrun] at hfit
    obtain ⟨taken, hq, hnq, hqs, hcs⟩ := h.queue
    refine h.future (e := .returned p.gen r.ok) hpr rfl hfit.2.2.1 ?_ (fun q hwq => by cases hwq)
      (fun q hwq => .inl ?_) (by rw [hrun]; rfl) ⟨taken, hq, ?_, ?_, ?_⟩
    · unfold Fits
      dsimp only
      rw [update_self]
      refine ⟨?_, List.mem_append_left _ hfit.2.2.1, List.mem_append_right _ (List.mem_singleton_self _)⟩
      simpa using hfit.2.1
    · rw [hwk] at hwq
      exact (Option.some.inj hwq).symm
    · intro q hqt
      by_cases hg : q.gen = p.gen
      · rw [hg, update_self]
        exact Future.noConfusion
      · rw [update_of_ne hg]
        exact hnq q hqt
    · intro q hqq
      by_cases hg : q.gen = p.gen
      · have hqs := hqs q hqq
        rw [hg, hrun] at hqs
        rcases hqs with hqs | hqs <;> cases hqs
      · rw [update_of_ne hg]
        exact hqs q hqq
    · rw [calls_append, show calls [Entry.returned p.gen r.ok] = [] from rfl, List.append_nil, ← hcs]
      exact kept_congr fun q _ => by simp

theorem Inv.drain (h : Inv s) (hpc : s.pc = .idle) {armed : Bool} : Inv (s.drain armed) := by
  cases hpe : s.pending with
  | nil =>
    rw [show s.drain armed = s by simp only [AuthorityRequests.drain, hpe]]
    exact h
  | cons p rest =>
    have hpr : p ∈ requests s.log := h.of_pending (by rw [hpe]; exact List.mem_cons_self)
    obtain ⟨d, hpd, hdr⟩ := h.drained
    rw [hpe] at hpd
    have hpd' : requests s.log = (d ++ [p]) ++ rest := by rw [hpd, List.append_assoc]; rfl
    have hlt : ∀ q ∈ d, q.gen < p.gen := by
      intro q hqd
      have hs := h.sorted
      rw [hpd, List.pairwise_append] at hs
      exact hs.2.2 q hqd p List.mem_cons_self
    cases hf : s.futures p.gen with
    | queued =>
      rw [show s.drain armed = s by simp only [AuthorityRequests.drain, hpe, hf]]
      exact h
    | running =>
      rw [show s.drain armed = s by simp only [AuthorityRequests.drain, hpe, hf]]
      exact h
    | cancelled =>
      rw [show s.drain armed = { s with pending := rest } by
        simp only [AuthorityRequests.drain, hpe, hf]]
      refine { h with
        fits := h.fits
        drained := ⟨d ++ [p], hpd', fun q hqd => ?_⟩
        doneGen := ⟨h.doneGen.1, fun q hqr => h.doneGen.2 q (by rw [hpe]; exact List.mem_cons_of_mem _ hqr)⟩
        underway := ?_ }
      · rcases List.mem_append.mp hqd with hqd | hqd
        · exact hdr q hqd
        · unfold Drained
          dsimp only
          rw [List.mem_singleton.mp hqd, hf]
          exact ⟨rfl, fun r hr => by cases hr⟩
      · unfold Underway
        dsimp only
        rw [hpc]
        trivial
    | finished r =>
      rw [show s.drain armed = { s with
          pending := rest, authorityDone := p.gen, authorityFault := if r.ok then "" else r.reason
          authorityFailed := if r.ok then s.authorityFailed else (p.gen, r.reason)
          pc := if p.want && !r.ok && armed then .checking rest else .idle } by
        simp only [AuthorityRequests.drain, hpe, hf]]
      refine { h with
        fits := h.fits
        drained := ⟨d ++ [p], hpd', fun q hqd => ?_⟩
        doneGen := ⟨(h.bounds p hpr).2, fun q hqr => ?_⟩
        underway := ?_ }
      · unfold Drained
        dsimp only
        rcases List.mem_append.mp hqd with hqd | hqd
        · refine ⟨(hdr q hqd).1, fun r' hr' hok => ?_⟩
          have hle := (hdr q hqd).2 r' hr' hok
          by_cases hr : r.ok = true
          · rw [if_pos hr]
            exact hle
          · rw [if_neg hr]
            exact (hlt q hqd).le
        · rw [List.mem_singleton.mp hqd, hf]
          refine ⟨rfl, fun r' hr' hok => ?_⟩
          cases hr'
          rw [hok]
          exact le_rfl
      · have hs := h.sorted
        rw [hpd', List.pairwise_append] at hs
        exact hs.2.2 p (by simp) q hqr
      · unfold Underway
        dsimp only
        by_cases hbad : (p.want && !r.ok && armed) = true
        · rw [if_pos hbad]
          exact ⟨[], rfl, by simp⟩
        · rw [if_neg hbad]
          trivial

/-- what was taken back is done; the rest is still pending -/
theorem Inv.settled (h : Inv s)
    (hd : ∀ p ∈ s.pending, p.want = false → (s.futures p.gen).done = true) :
    ∀ p ∈ requests s.log, p.want = false → (s.futures p.gen).done = true := by
  intro p hp hw
  obtain ⟨d, hpd, hdr⟩ := h.drained
  rw [hpd, List.mem_append] at hp
  rcases hp with hp | hp
  · exact (hdr p hp).1
  · exact hd p hp hw

/-- a DISARM in flight covers the one under way -/
theorem Inv.covered (h : Inv s) (hp : p ∈ s.pending) (hw : p.want = false)
    (hnd : (s.futures p.gen).done = false) :
    Inv { s with pc := .idle, log := s.log ++ [Entry.covered p.gen] ++ [Entry.answered false s.authorityGen] } := by
  have hpr := h.of_pending hp
  have hreq : .requested ⟨false, p.gen⟩ ∈ s.log := by
    have hreq := mem_requests.mp hpr
    rwa [show p = ⟨false, p.gen⟩ from by rw [← hw]] at hreq
  have hlast := h.latest p hpr hw hnd
  have hc : Inv { s with log := s.log ++ [Entry.covered p.gen] } := by
    refine h.note rfl rfl ⟨hreq, ?_, fun q hq hqw => ?_⟩
    · have hfit := h.fits p hpr
      unfold Fits at hfit
      cases hf : s.futures p.gen with
      | queued =>
        rw [hf] at hfit
        exact hfit.2.2
      | running =>
        rw [hf] at hfit
        exact hfit.2.2.2
      | _ =>
        rw [hf] at hnd
        cases hnd
    · refine lt_of_le_of_ne (hlast q hq) fun hg => ?_
      rw [h.eq_of_gen hq hpr hg, hw] at hqw
      cases hqw
  have hgen : p.gen = s.authorityGen := by
    obtain ⟨q, hq, hqg⟩ := h.newest (List.ne_nil_of_mem hpr)
    exact le_antisymm (h.bounds p hpr).2 (hqg ▸ hlast q hq)
  have ha := hc.note (e := .answered false s.authorityGen) rfl rfl
    (List.mem_append_left _ (hgen ▸ hreq))
  exact ha.setPc .idle trivial

theorem Inv.proceed (h : Inv s) : Inv s.proceed := by
  have hu := h.underway
  unfold Underway at hu
  unfold AuthorityRequests.proceed
  cases hpc : s.pc with
  | idle => exact h
  | checking rest =>
    rw [hpc] at hu
    obtain ⟨seen, hseen, hd⟩ := hu
    cases rest with
    | nil =>
      rw [List.append_nil] at hseen
      exact h.setPc (.cancelling s.pending) ⟨hseen ▸ hd, fun p hp => hp⟩
    | cons p rest =>
      dsimp only
      have hp : p ∈ s.pending := hseen ▸ List.mem_append_right _ List.mem_cons_self
      by_cases hc : (!p.want && !(s.futures p.gen).done) = true
      · rw [if_pos hc]
        rw [Bool.and_eq_true, Bool.not_eq_true', Bool.not_eq_true'] at hc
        exact h.covered hp hc.1 hc.2
      · rw [if_neg hc]
        refine h.setPc (.checking rest) ⟨seen ++ [p], ?_, fun q hq hw => ?_⟩
        · rw [List.append_assoc]
          exact hseen
        · rcases List.mem_append.mp hq with hq | hq
          · exact hd q hq hw
          · rw [List.mem_singleton.mp hq] at hw ⊢
            simpa [hw] using hc
  | cancelling rest =>
    rw [hpc] at hu
    cases rest with
    | nil => exact h.submit (h.settled hu.1)
    | cons p rest =>
      dsimp only
      have hp : p ∈ s.pending := hu.2 p List.mem_cons_self
      have hafter : ∀ t : AuthorityRequests, Inv t → t.pc = s.pc → t.pending = s.pending →
          Inv { t with pc := .cancelling rest } := by
        intro t ht htpc htp
        have hut := ht.underway
        unfold Underway at hut
        rw [htpc, hpc] at hut
        exact ht.setPc _ ⟨hut.1, fun q hq => hut.2 q (List.mem_cons_of_mem _ hq)⟩
      by_cases hw : p.want = true
      · rw [if_pos hw]
        refine hafter _ (h.cancel hp hw) ?_ ?_
        · unfold AuthorityRequests.cancel
          split_ifs <;> rfl
        · unfold AuthorityRequests.cancel
          split_ifs <;> rfl
      · rw [if_neg hw]
        exact hafter s h rfl rfl

theorem Inv.arm (h : Inv s) {armed : Bool} : Inv (s.arm armed) := by
  unfold AuthorityRequests.arm
  by_cases hp : (s.pending.any fun p => !p.want) = true
  · rw [if_pos hp]
    exact h
  rw [if_neg hp]
  cases armed with
  | true => exact h.note rfl rfl trivial
  | false =>
    refine h.submit (h.settled fun p hpp hw => absurd ?_ hp)
    exact List.any_eq_true.mpr ⟨p, hpp, by rw [hw]; rfl⟩

theorem Inv.step (h : Inv s) (e : AuthorityEvent) : Inv (s.step e) := by
  unfold AuthorityRequests.step
  cases e with
  | arm armed =>
    dsimp only
    split_ifs
    · exact h.arm
    · exact h
  | disarm =>
    dsimp only
    split_ifs
    · exact h.setPc _ ⟨[], rfl, by simp⟩
    · exact h
  | proceed => exact h.proceed
  | drain armed =>
    dsimp only
    split_ifs with hpc
    · exact h.drain hpc
    · exact h
  | take => exact h.take
  | ret r => exact h.ret

theorem inv_run (es : List AuthorityEvent) : Inv (run {} es) :=
  Run.invariant inv_initial (fun _ e _ h => h.step e) (Run.along_of_forall (fun _ _ => trivial) es)

/-! ## the last requested authority wins -/

/-- the link calls are the requests in order, without the cancelled ones -/
theorem Inv.inOrder (h : Inv s) : ∃ waiting, kept s.log (requests s.log) = calls s.log ++ waiting := by
  obtain ⟨taken, hq, -, -, hcs⟩ := h.queue
  refine ⟨kept s.log s.queue, ?_⟩
  rw [← hcs, hq]
  unfold kept
  rw [List.filter_append, List.map_append]

/-- only an ARM that has not started is cancelled -/
theorem Inv.onlyArms (h : Inv s) (hc : .cancelled gen ∈ s.log) :
    .requested ⟨true, gen⟩ ∈ s.log ∧ .started gen ∉ s.log := by
  obtain ⟨p, hp, rfl⟩ := h.about hc rfl
  have hfit := h.fits p hp
  unfold Fits at hfit
  cases hf : s.futures p.gen with
  | cancelled =>
    rw [hf] at hfit
    have hreq := mem_requests.mp hp
    rw [show p = ⟨true, p.gen⟩ from by rw [← hfit.1]] at hreq
    exact ⟨hreq, hfit.2.2.1⟩
  | queued =>
    rw [hf] at hfit
    exact absurd hc hfit.1
  | running =>
    rw [hf] at hfit
    exact absurd hc hfit.2.1
  | finished r =>
    rw [hf] at hfit
    exact absurd hc hfit.1

/-- no ARM requested before a DISARM starts after the `safe_stop` that covers it -/
theorem Inv.outranked (h : Inv s) {a : ℕ} {x y : List Entry} (ha : a < gen)
    (hs : s.log = x ++ .started gen :: y) : .started a ∉ y := by
  intro hy
  obtain ⟨u, v, rfl⟩ := List.append_of_mem hy
  have hsound := h.sound (x ++ .started gen :: u) (.started a) v (by rw [hs]; simp)
  have hlt := (hsound.2.2 gen (mem_calls.mpr (by simp))).1
  exact Nat.lt_asymm ha hlt

/-- a confirmed wait for a DISARM -/
theorem Inv.confirmed (h : Inv s) {lifecycleArmed ready : Bool} (ha : .answered false gen ∈ s.log)
    (hw : s.awaitAuthority gen false lifecycleArmed ready = some (.ok ())) :
    .requested ⟨false, gen⟩ ∈ s.log ∧ .returned gen true ∈ s.log := by
  obtain ⟨a, b, hab⟩ := List.append_of_mem ha
  have hreq : .requested ⟨false, gen⟩ ∈ s.log := by
    rw [hab]
    exact List.mem_append_left _ (h.sound a _ b hab)
  refine ⟨hreq, ?_⟩
  unfold awaitAuthority at hw
  dsimp only at hw
  have hpr := mem_requests.mpr hreq
  by_cases hfailed : gen ≤ s.authorityFailed.1
  · simp [hfailed] at hw
  by_cases hdone : gen ≤ s.authorityDone
  · -- it was taken back, and it did not fail
    obtain ⟨d, hpd, hdr⟩ := h.drained
    have hd : (⟨false, gen⟩ : Pending) ∈ d := by
      rw [hpd, List.mem_append] at hpr
      refine hpr.resolve_right fun hp => ?_
      exact absurd (h.doneGen.2 _ hp) (not_lt.mpr hdone)
    obtain ⟨hdn, hok⟩ := hdr _ hd
    have hfit := h.fits _ hpr
    unfold Fits at hfit
    dsimp only at hdn hok hfit
    cases hf : s.futures gen with
    | finished r =>
      rw [hf] at hfit
      by_cases hr : r.ok = true
      · rw [← hr]
        exact hfit.2.2
      · exact absurd (hok r hf (by simpa using hr)) hfailed
    | cancelled =>
      rw [hf] at hfit
      cases hfit.1
    | _ =>
      rw [hf] at hdn
      cases hdn
  · simp [hfailed, hdone] at hw

/-- **The last requested authority wins.**  In every interleaving of the loop thread with the RPC worker:
the link calls run one at a time and in request order, with only queued ARMs omitted; an ARM requested
before a DISARM never starts after the `safe_stop` that covers it; an ARM is queued only when every DISARM
before it has returned; a covered DISARM is covered by one that has not; and a client that awaits the
generation of its DISARM is told of success only after that DISARM was confirmed. -/
theorem authority_order (es : List AuthorityEvent) :
    (∃ waiting, kept (run {} es).log (requests (run {} es).log) = calls (run {} es).log ++ waiting) ∧
      (∀ gen, .cancelled gen ∈ (run {} es).log → .requested ⟨true, gen⟩ ∈ (run {} es).log ∧
        .started gen ∉ (run {} es).log) ∧
      (∀ pre gen post, (run {} es).log = pre ++ .started gen :: post →
        ∀ g, .started g ∈ pre → ∃ ok, .returned g ok ∈ pre) ∧
      (∀ pre e post gen, (run {} es).log = pre ++ e :: post →
        e = .requested ⟨false, gen⟩ ∨ e = .covered gen → ∀ a, .requested ⟨true, a⟩ ∈ pre →
        ∀ x y, (run {} es).log = x ++ .started gen :: y → .started a ∉ y) ∧
      (∀ pre a post, (run {} es).log = pre ++ .requested ⟨true, a⟩ :: post →
        ∀ gen, .requested ⟨false, gen⟩ ∈ pre → ∃ ok, .returned gen ok ∈ pre) ∧
      (∀ pre gen post, (run {} es).log = pre ++ .covered gen :: post →
        .requested ⟨false, gen⟩ ∈ pre ∧ ∀ ok, .returned gen ok ∉ pre) ∧
      ∀ gen lifecycleArmed ready, .answered false gen ∈ (run {} es).log →
        (run {} es).awaitAuthority gen false lifecycleArmed ready = some (.ok ()) →
        .requested ⟨false, gen⟩ ∈ (run {} es).log ∧ .returned gen true ∈ (run {} es).log := by
  have h := inv_run es
  refine ⟨h.inOrder, ?_, ?_, ?_, ?_, ?_, fun gen _ _ ha hw => h.confirmed ha hw⟩
  · intro gen hc
    exact h.onlyArms hc
  · intro pre gen post hpre g hg
    exact ((h.sound pre _ post hpre).2.2 g (mem_calls.mpr hg)).2
  · intro pre e post gen hpre he a ha x y hs
    refine h.outranked ?_ hs
    have hsound := h.sound pre e post hpre
    rcases he with rfl | rfl
    · exact (hsound _ (mem_requests.mpr ha)).1
    · exact hsound.2.2 _ (mem_requests.mpr ha) rfl
  · intro pre a post hpre gen hg
    exact (h.sound pre _ post hpre _ (mem_requests.mpr hg)).2 rfl rfl
  · intro pre gen post hpre
    have hsound := h.sound pre _ post hpre
    exact ⟨hsound.1, hsound.2.1⟩

/-- any other generation settles as well: here that of an ARM, with no DISARM requested at all -/
theorem arm_awaited_as_disarm : ¬ ∀ es gen lifecycleArmed ready,
    (run {} es).awaitAuthority gen false lifecycleArmed ready = some (.ok ()) →
      ∃ g ≥ gen, .requested ⟨false, g⟩ ∈ (run {} es).log ∧ .returned g true ∈ (run {} es).log := by
  intro h
  obtain ⟨g, -, hg, -⟩ := h [.arm false, .take, .ret .confirmed, .drain true] 1 false true rfl
  have hlog : (run {} [.arm false, .take, .ret .confirmed, .drain true]).log =
      [.requested ⟨true, 1⟩, .answered true 1, .started 1, .returned 1 true] := rfl
  rw [hlog] at hg
  simp at hg

end AuthorityRequests
end ArmControl.Supervisor
