import Mathlib.Data.List.FinRange
import Mathlib.Data.List.Infix
import ArmControl.Clients.Session
import ArmControl.Execution.Contract

/-!
# The supervisor as a client's calls find it

A supervisor keeps a list of executions, one for each request id that it still knows (`supervisor/runtime.py`,
`_submit`, `_release`, `_cancel`, `status`).  Between the calls of one client it goes on by itself, and a call may be
refused, lost before or after it took effect, or run into a timeout: `Env` decides all of that.

* `Entry`, `Ledger`, `Deed`   the executions, and what the supervisor does by itself;
* `Op`, `Ledger.serve`        what a call does to them, and the execution that it answers with;
* `Env`, `World`, `ask`       the calls of a client, `wait` and `cancel` (`sdk.py`, `ArmClient`);
* `Entry.Later`, `Change`     what one call can change, with `ask_ends`, `wait_ends`, `cancel_ends`;
* `Ledger.Sound`              at most one execution is live, and only a released one has begun.

An execution is known by its place in the list.
-/

namespace ArmControl.Executions

open Execution Clients

structure Entry where
  request : TrajectoryRequest
  phase : Phase
  /-- a release of it took effect -/
  released : Bool := false
  /-- a cancel of it was taken -/
  cancelled : Bool := false
  /-- it has not been pruned -/
  known : Bool := true
  deriving DecidableEq

def Entry.live (e : Entry) : Bool := !e.phase.terminal

/-- a plan's id is its request id -/
def Entry.planId (e : Entry) : String := e.request.requestId

/-- the phases that may follow: a planned execution begins once it is released -/
def Entry.mayBecome (e : Entry) (p : Phase) : Bool :=
  e.live && match p.ends with
    | some before => decide (e.phase ∈ before)
    | none => decide (e.phase.chain < p.chain) && (!p.begun || e.released || decide (e.request.start = .onAdmit))

abbrev Ledger : Type := List Entry

/-- what the supervisor does by itself -/
inductive Deed where
  | advance (i : ℕ) (p : Phase)
  | prune (i : ℕ)

def Entry.advance (e : Entry) (p : Phase) : Entry := if e.mayBecome p then { e with phase := p } else e

def Entry.prune (e : Entry) : Entry := if e.live then e else { e with known := false }

def Ledger.act (l : Ledger) : Deed → Ledger
  | .advance i p => l.modify i (·.advance p)
  | .prune i => l.modify i (·.prune)

def Ledger.acts (l : Ledger) (ds : List Deed) : Ledger := ds.foldl Ledger.act l

/-! ## calls -/

inductive Op where
  | submit (r : TrajectoryRequest)
  | release (i : ℕ)
  | cancel (i : ℕ)
  | status (i : ℕ)
  deriving DecidableEq

/-- `_owns` comes first -/
def Op.owned : Op → Bool
  | .status _ => false
  | _ => true

/-- the execution of a request id -/
def Ledger.byRequest (l : Ledger) (requestId : String) : Option ℕ :=
  l.findIdx? fun e => e.known && e.request.requestId == requestId

/-- `_get` -/
def Ledger.get (l : Ledger) (i : ℕ) : Except String Entry :=
  match l[i]? with
  | some e => if e.known then .ok e else .error ("unknown execution " ++ toString i)
  | none => .error ("unknown execution " ++ toString i)

/-- a new execution: admitted unless another one is live, or the admission refuses it -/
def Ledger.admission (l : Ledger) (admits : Bool) (r : TrajectoryRequest) : Entry where
  request := r
  phase := if l.any Entry.live || !admits then .rejected else .admitted

/-- the effect of a call, and the execution that it is about -/
def Ledger.serve (l : Ledger) (admits : Bool) : Op → Except String (ℕ × Ledger)
  | .submit r =>
    match l.byRequest r.requestId with
    | some i =>
      if (l[i]?.map Entry.request) = some r then .ok (i, l)
      else .error ("request_id " ++ r.requestId ++ " was already used with different content")
    | none => .ok (l.length, l ++ [l.admission admits r])
  | .release i =>
    match l.get i with
    | .error text => .error text
    | .ok e =>
      if e.phase ≠ .admitted then .ok (i, l)
      else if e.request.start ≠ .onRelease then .error (toString i ++ " starts on admission, not on release")
      else .ok (i, l.modify i fun e => { e with released := true })
  | .cancel i =>
    match l.get i with
    | .error text => .error text
    | .ok _ => .ok (i, l.modify i fun e => { e with cancelled := true })
  | .status i =>
    match l.get i with
    | .error text => .error text
    | .ok _ => .ok (i, l)

/-- how a reply is lost -/
inductive Loss where
  | supervisor (text : String)
  | timeout (text : String)
  | os (text : String)

def Loss.error : Loss → CallError
  | .supervisor t => .supervisor t
  | .timeout t => .timeout t
  | .os t => .os t

inductive Fate where
  | answered
  /-- refused by the ownership check -/
  | refused (text : String)
  /-- no reply; `reached` says whether the call took effect -/
  | lost (reached : Bool) (loss : Loss)

def Fate.isLost : Fate → Bool
  | .lost _ _ => true
  | _ => false

/-- one call, and what the supervisor does before it and before its reply -/
structure Turn where
  before : List Deed := []
  fate : Fate := .answered
  admits : Bool := true
  within : List Deed := []
  reason : String := ""

/-- what decides a run: the turn of every call, and how long a `wait` goes on -/
structure Env where
  turn : ℕ → Turn
  polls : ℕ → ℕ

/-- the executions, and the number of the next call -/
structure World where
  ledger : Ledger := []
  calls : ℕ := 0

/-- `ExecutionStatus` -/
structure Reply where
  execution : ℕ
  phase : Phase
  reason : String

def Reply.terminal (r : Reply) : Bool := r.phase.terminal

/-- a reply that says that an execution has ended -/
theorem Reply.ended_of {r : Reply} {e : Entry} (h : r.terminal = true) (hphase : e.phase = r.phase) : e.live = false := by
  unfold Entry.live
  rw [hphase]
  exact congrArg Bool.not h

def World.next (w : World) (l : Ledger) : World := { ledger := l, calls := w.calls + 1 }

/-- the executions when the next call is handled -/
def World.found (env : Env) (w : World) : Ledger := w.ledger.acts (env.turn w.calls).before

/-- the executions when its reply is made, and the execution that it is about -/
def World.served (env : Env) (w : World) (op : Op) : Except String (ℕ × Ledger) :=
  ((w.found env).serve (env.turn w.calls).admits op).map fun r => (r.1, r.2.acts (env.turn w.calls).within)

/-- a call that is answered -/
def answer (env : Env) (op : Op) : EStateM CallError World Reply := fun w =>
  match w.served env op with
  | .ok r => .ok ⟨r.1, (r.2[r.1]?.map Entry.phase).getD .rejected, (env.turn w.calls).reason⟩ (w.next r.2)
  | .error text => .error (.refused text) (w.next (w.found env))

/-- a call whose reply is lost -/
def lose (env : Env) (op : Op) (reached : Bool) (loss : Loss) : EStateM CallError World Reply := fun w =>
  match reached, w.served env op with
  | true, .ok r => .error loss.error (w.next r.2)
  | _, _ => .error loss.error (w.next (w.found env))

def ask (env : Env) (op : Op) : EStateM CallError World Reply := do
  let w ← get
  match (env.turn w.calls).fate with
  | .answered => answer env op
  | .refused text =>
    if op.owned then fun w => .error (.refused text) (w.next (w.found env)) else answer env op
  | .lost reached loss => lose env op reached loss

/-- the polls of `ArmClient.wait` -/
def poll (env : Env) (i : ℕ) : ℕ → EStateM CallError World Reply
  | 0 => do
    let r ← ask env (.status i)
    if r.terminal then pure r else throw (.timeout (toString i ++ " still " ++ r.phase.value))
  | n + 1 => do
    let r ← ask env (.status i)
    if r.terminal then pure r else poll env i n

/-- `ArmClient.wait` -/
def wait (env : Env) (i : ℕ) : EStateM CallError World Reply := do
  let w ← get
  poll env i (env.polls w.calls)

/-- `ArmClient.cancel` -/
def cancel (env : Env) (i : ℕ) : EStateM CallError World Reply := do
  let _ ← ask env (.cancel i)
  wait env i

/-- `'unknown execution' in str(exc)` -/
def unknownExecution (text : String) : Bool := decide ("unknown execution".toList <:+: text.toList)

/-! ## what a call can change -/

/-- an execution later on -/
structure Entry.Later (e e' : Entry) : Prop where
  request : e'.request = e.request
  ended : e.live = false → e'.phase = e.phase
  released : e.released = true → e'.released = true
  cancelled : e.cancelled = true → e'.cancelled = true
  forgotten : e.known = false → e'.known = false
  /-- only an execution that has ended is forgotten -/
  retained : e'.known = false → e.known = false ∨ e'.live = false
  /-- an execution that has begun goes on until it ends -/
  begun : e.phase.begun = true → e'.live = true → e'.phase.begun = true

theorem Entry.Later.refl (e : Entry) : e.Later e := ⟨rfl, fun _ => rfl, id, id, id, .inl, fun h _ => h⟩

theorem Entry.Later.planId {e e' : Entry} (h : e.Later e') : e'.planId = e.planId :=
  congrArg TrajectoryRequest.requestId h.request

theorem Entry.Later.ended_of {e e' : Entry} (h : e.Later e') (hover : e.live = false) : e'.live = false := by
  unfold Entry.live at hover ⊢
  rw [h.ended hover]
  exact hover

theorem Entry.Later.live {e f : Entry} (h : e.Later f) (hlive : f.live = true) : e.live = true := by
  cases hl : e.live with
  | true => rfl
  | false =>
    rw [h.ended_of hl] at hlive
    cases hlive

theorem Entry.Later.trans {e e' e'' : Entry} (h : e.Later e') (h' : e'.Later e'') : e.Later e'' where
  request := h'.request.trans h.request
  ended hover := (h'.ended (h.ended_of hover)).trans (h.ended hover)
  released hr := h'.released (h.released hr)
  cancelled hc := h'.cancelled (h.cancelled hc)
  forgotten hf := h'.forgotten (h.forgotten hf)
  retained hk := by
    rcases h'.retained hk with hk' | hk'
    · rcases h.retained hk' with h0 | h0
      · exact .inl h0
      · exact .inr (h'.ended_of h0)
    · exact .inr hk'
  begun hb hlive := h'.begun (h.begun hb (h'.live hlive)) hlive

/-- what may happen to the executions around a call of `op`, or around none -/
structure Change (op : Option Op) (l l' : Ledger) : Prop where
  old : ∀ (i : ℕ) (e : Entry), l[i]? = some e → ∃ e', l'[i]? = some e' ∧ e.Later e' ∧
    (e'.released = true → e.released = true ∨ op = some (.release i)) ∧
    (e'.cancelled = true → e.cancelled = true ∨ op = some (.cancel i))
  new : ∀ (i : ℕ) (e' : Entry), l[i]? = none → l'[i]? = some e' → op = some (.submit e'.request) ∧ e'.released = false ∧ e'.cancelled = false

variable {op : Option Op} {l l' l'' : Ledger}

theorem Change.refl (op : Option Op) (l : Ledger) : Change op l l where
  old _ e he := ⟨e, he, .refl e, .inl, .inl⟩
  new i e' hn hs := by
    rw [hn] at hs
    cases hs

/-- a call of `op`, before and after which the supervisor goes on by itself -/
theorem Change.trans_idle (h : Change op l l') (h' : Change none l' l'') : Change op l l'' where
  old i e he := by
    obtain ⟨e', he', hl, hr, hc⟩ := h.old i e he
    obtain ⟨e'', he'', hl', hr', hc'⟩ := h'.old i e' he'
    refine ⟨e'', he'', hl.trans hl', fun h0 => ?_, fun h0 => ?_⟩
    · exact hr ((hr' h0).resolve_right nofun)
    · exact hc ((hc' h0).resolve_right nofun)
  new i e'' hn hs := by
    cases hm : l'[i]? with
    | none =>
      obtain ⟨hop, -⟩ := h'.new i e'' hm hs
      cases hop
    | some e' =>
      obtain ⟨hop, hr, hc⟩ := h.new i e' hn hm
      obtain ⟨f, hf, hl, hfr, hfc⟩ := h'.old i e' hm
      obtain rfl := Option.some.inj (hf.symm.trans hs)
      refine ⟨?_, Bool.eq_false_iff.mpr fun h0 => ?_, Bool.eq_false_iff.mpr fun h0 => ?_⟩
      · rw [hop, hl.request]
      · rw [(hfr h0).resolve_right nofun] at hr
        cases hr
      · rw [(hfc h0).resolve_right nofun] at hc
        cases hc

theorem Change.idle_trans (h : Change none l l') (h' : Change op l' l'') : Change op l l'' where
  old i e he := by
    obtain ⟨e', he', hl, hr, hc⟩ := h.old i e he
    obtain ⟨e'', he'', hl', hr', hc'⟩ := h'.old i e' he'
    refine ⟨e'', he'', hl.trans hl', fun h0 => ?_, fun h0 => ?_⟩
    · rcases hr' h0 with h1 | h1
      · exact .inl ((hr h1).resolve_right nofun)
      · exact .inr h1
    · rcases hc' h0 with h1 | h1
      · exact .inl ((hc h1).resolve_right nofun)
      · exact .inr h1
  new i e'' hn hs := by
    cases hm : l'[i]? with
    | none => exact h'.new i e'' hm hs
    | some e' =>
      obtain ⟨hop, -⟩ := h.new i e' hn hm
      cases hop

theorem Change.of_idle (h : Change none l l') : Change op l l' := h.idle_trans (.refl op _)

/-- one execution changes -/
theorem change_modify {i : ℕ} {f : Entry → Entry} (hf : ∀ e, l[i]? = some e → e.Later (f e) ∧
    ((f e).released = true → e.released = true ∨ op = some (.release i)) ∧
    ((f e).cancelled = true → e.cancelled = true ∨ op = some (.cancel i))) : Change op l (l.modify i f) where
  old j e he := by
    by_cases hij : i = j
    · subst hij
      refine ⟨f e, ?_, hf e he⟩
      rw [List.getElem?_modify_eq, he]
      rfl
    · refine ⟨e, ?_, .refl e, .inl, .inl⟩
      rw [List.getElem?_modify_ne _ _ hij, he]
  new j e' hn hs := by
    by_cases hij : i = j
    · subst hij
      rw [List.getElem?_modify_eq, hn] at hs
      cases hs
    · rw [List.getElem?_modify_ne _ _ hij, hn] at hs
      cases hs

theorem chain_of_begun {p : Phase} (h : p.begun = true) : 2 ≤ p.chain := by
  cases p <;> first | exact absurd h (by decide) | decide

theorem begun_of_chain {p : Phase} (h : 2 < p.chain) (hnone : p.ends = none) : p.begun = true := by
  cases p <;> first | rfl | exact absurd h (by decide) | cases hnone

theorem advance_later (e : Entry) (p : Phase) : e.Later (e.advance p) := by
  unfold Entry.advance
  split
  case isTrue h =>
    unfold Entry.mayBecome at h
    refine ⟨rfl, fun hover => ?_, id, id, id, .inl, fun hb hlive => ?_⟩
    · rw [hover] at h
      cases h
    · unfold Entry.live at hlive
      dsimp only at hlive
      have hnone : p.ends = none := by
        cases hp : p.ends with
        | none => rfl
        | some before =>
          rw [Phase.terminal, hp] at hlive
          cases hlive
      rw [hnone] at h
      have hchain := of_decide_eq_true (Bool.and_eq_true_iff.mp (Bool.and_eq_true_iff.mp h).2).1
      exact begun_of_chain (hchain.trans_le' (chain_of_begun hb)) hnone
  case isFalse => exact .refl e

theorem prune_later (e : Entry) : e.Later e.prune := by
  unfold Entry.prune
  split
  case isTrue => exact .refl e
  case isFalse h => exact ⟨rfl, fun _ => rfl, id, id, fun _ => rfl, fun _ => .inr (Bool.eq_false_of_not_eq_true h), fun hb _ => hb⟩

theorem change_act (l : Ledger) (d : Deed) : Change none l (l.act d) := by
  cases d with
  | advance i p =>
    refine change_modify fun e _ => ⟨advance_later e p, fun h => .inl ?_, fun h => .inl ?_⟩
    · unfold Entry.advance at h
      split at h <;> exact h
    · unfold Entry.advance at h
      split at h <;> exact h
  | prune i =>
    refine change_modify fun e _ => ⟨prune_later e, fun h => .inl ?_, fun h => .inl ?_⟩
    · unfold Entry.prune at h
      split at h <;> exact h
    · unfold Entry.prune at h
      split at h <;> exact h

theorem change_acts (l : Ledger) (ds : List Deed) : Change none l (l.acts ds) := by
  induction ds generalizing l with
  | nil => exact .refl _ l
  | cons d ds ih => exact (change_act l d).idle_trans (ih _)

theorem get_ok {i : ℕ} {e : Entry} (h : l.get i = .ok e) : l[i]? = some e ∧ e.known = true := by
  unfold Ledger.get at h
  split at h
  · rename_i e' he
    split_ifs at h with hk
    obtain rfl := Except.ok.inj h
    exact ⟨he, hk⟩
  · cases h

/-- no execution of the request id is live -/
def NoLive (l : Ledger) (p : String) : Prop := ∀ (i : ℕ) (e : Entry), l[i]? = some e → e.planId = p → e.live = false

/-! ## sound executions -/

structure Entry.Sound (e : Entry) : Prop where
  forgotten : e.known = false → e.live = false
  begun : e.phase.begun = true → e.released = true ∨ e.request.start = .onAdmit

/-- at most one execution is live, and at most one is known by its request id -/
structure Ledger.Sound (l : Ledger) : Prop where
  entry : ∀ (i : ℕ) (e : Entry), l[i]? = some e → e.Sound
  one : ∀ (i j : ℕ) (e f : Entry), l[i]? = some e → l[j]? = some f → e.live = true → f.live = true → i = j
  ids : ∀ (i j : ℕ) (e f : Entry), l[i]? = some e → l[j]? = some f → e.known = true → f.known = true →
    e.request.requestId = f.request.requestId → i = j

/-- an execution that is live has not been pruned -/
theorem Entry.Sound.known {e : Entry} (h : e.Sound) (hlive : e.live = true) : e.known = true := by
  cases hk : e.known with
  | true => rfl
  | false =>
    rw [h.forgotten hk] at hlive
    cases hlive

/-- `i` is the execution that the call is about -/
structure Target (o : Op) (i : ℕ) (l : Ledger) : Prop where
  entry : ∃ e, l[i]? = some e ∧ (∀ r, o = .submit r → e.request = r) ∧ ∀ j, o = .cancel j → e.cancelled = true
  about : ∀ j, o = .release j ∨ o = .cancel j ∨ o = .status j → i = j

theorem Target.later {o : Op} {i : ℕ} (h : Target o i l) (hc : Change none l l') : Target o i l' := by
  obtain ⟨e, he, hr, hcan⟩ := h.entry
  obtain ⟨e', he', hlater, -⟩ := hc.old i e he
  exact ⟨⟨e', he', fun r ho => hlater.request.trans (hr r ho), fun j ho => hlater.cancelled (hcan j ho)⟩, h.about⟩

def Known (i : ℕ) (l : Ledger) : Prop := ∃ e, l[i]? = some e ∧ e.known = true

/-- no other execution of the same request id is live -/
def Sole (i : ℕ) (l : Ledger) : Prop :=
  ∀ (j : ℕ) (e f : Entry), l[i]? = some e → l[j]? = some f → f.live = true → f.request.requestId = e.request.requestId → j = i

/-- neither a new execution nor a release -/
def Plain (op : Option Op) : Prop := op = none ∨ ∃ i, op = some (.cancel i)

/-- an execution was there before -/
theorem Change.back (h : Change op l l') (hop : Plain op) {j : ℕ} {f : Entry} (hf : l'[j]? = some f) :
    ∃ e, l[j]? = some e ∧ e.Later f ∧ (f.released = true → e.released = true) ∧ (f.cancelled = false → e.cancelled = false) := by
  have hplain : (∀ r, op ≠ some (.submit r)) ∧ ∀ i, op ≠ some (.release i) := by
    rcases hop with rfl | ⟨i, rfl⟩
    · exact ⟨fun r => (Option.some_ne_none _).symm, fun i => (Option.some_ne_none _).symm⟩
    · exact ⟨fun r hr => Op.noConfusion (Option.some.inj hr), fun i hi => Op.noConfusion (Option.some.inj hi)⟩
  cases hj : l[j]? with
  | none => exact absurd (h.new j f hj hf).1 (hplain.1 _)
  | some e =>
    obtain ⟨g, hg, hlater, hr, -⟩ := h.old j e hj
    obtain rfl := Option.some.inj (hg.symm.trans hf)
    refine ⟨e, rfl, hlater, fun h0 => (hr h0).resolve_right (hplain.2 j), fun h0 => ?_⟩
    cases hc : e.cancelled with
    | false => rfl
    | true =>
      rw [hlater.cancelled hc] at h0
      cases h0

/-- an execution that is live was there and live before -/
theorem Change.live (h : Change op l l') (hop : Plain op) {j : ℕ} {f : Entry} (hf : l'[j]? = some f) (hlive : f.live = true) :
    ∃ e, l[j]? = some e ∧ e.live = true ∧ e.Later f := by
  obtain ⟨e, he, hlater, -⟩ := h.back hop hf
  exact ⟨e, he, hlater.live hlive, hlater⟩

/-- no new execution is live -/
def Dwindles (l l' : Ledger) : Prop :=
  ∀ (i : ℕ) (e' : Entry), l'[i]? = some e' → e'.live = true → ∃ e, l[i]? = some e ∧ e.live = true ∧ e'.planId = e.planId

theorem Dwindles.refl (l : Ledger) : Dwindles l l := fun _ e he hlive => ⟨e, he, hlive, rfl⟩

theorem Dwindles.trans (h : Dwindles l l') (h' : Dwindles l' l'') : Dwindles l l'' := by
  intro i e'' he'' hlive''
  obtain ⟨e', he', hlive', hp'⟩ := h' i e'' he'' hlive''
  obtain ⟨e, he, hlive, hp⟩ := h i e' he' hlive'
  exact ⟨e, he, hlive, hp'.trans hp⟩

theorem Change.dwindles (h : Change op l l') (hop : ∀ r, op ≠ some (.submit r)) : Dwindles l l' := by
  intro i e' he' hlive
  cases hi : l[i]? with
  | none => exact absurd (h.new i e' hi he').1 (hop _)
  | some e =>
    obtain ⟨f, hf, hlater, -⟩ := h.old i e hi
    obtain rfl := Option.some.inj (hf.symm.trans he')
    exact ⟨e, rfl, hlater.live hlive, hlater.planId⟩

theorem sole_of_known {i : ℕ} (h : l.Sound) (hi : Known i l) : Sole i l := by
  intro j e' f he' hf hlive hid
  obtain ⟨e, he, hk⟩ := hi
  obtain rfl := Option.some.inj (he.symm.trans he')
  exact h.ids j i f e hf he ((h.entry j f hf).known hlive) hk hid

theorem Sole.later {i : ℕ} {e : Entry} (h : Sole i l) (hc : Change none l l') (he : l[i]? = some e) : Sole i l' := by
  intro j e' f he' hf hlive hid
  obtain ⟨g, hg, hlater, -⟩ := hc.old i e he
  obtain rfl := Option.some.inj (hg.symm.trans he')
  obtain ⟨f', hf', hlive', hlater'⟩ := hc.live (.inl rfl) hf hlive
  exact h j e f' he hf' hlive' (by rw [← hlater'.request, hid, hlater.request])

theorem byRequest_some {requestId : String} {i : ℕ} (h : l.byRequest requestId = some i) :
    ∃ e, l[i]? = some e ∧ e.known = true ∧ e.request.requestId = requestId := by
  obtain ⟨hlt, hp, -⟩ := List.findIdx?_eq_some_iff_getElem.mp h
  obtain ⟨hk, hid⟩ := Bool.and_eq_true_iff.mp hp
  exact ⟨l[i], List.getElem?_eq_getElem hlt, hk, beq_iff_eq.mp hid⟩

theorem byRequest_none {requestId : String} (h : l.byRequest requestId = none) {j : ℕ} {e : Entry} (he : l[j]? = some e)
    (hk : e.known = true) : e.request.requestId ≠ requestId := by
  intro hid
  have hfound := List.findIdx?_eq_none_iff.mp h e (List.mem_of_getElem? he)
  rw [hk, hid, beq_self_eq_true] at hfound
  cases hfound

/-- an execution of a longer list -/
theorem of_append {e e' : Entry} {j : ℕ} (h : (l ++ [e'])[j]? = some e) : l[j]? = some e ∨ j = l.length ∧ e = e' := by
  rcases Nat.lt_or_ge j l.length with hj | hj
  · rw [List.getElem?_append_left hj] at h
    exact .inl h
  · rw [List.getElem?_append_right hj] at h
    have hlt := (List.getElem?_eq_some_iff.mp h).1
    rw [List.length_singleton] at hlt
    exact .inr ⟨by omega, List.mem_singleton.mp (List.mem_of_getElem? h)⟩

theorem serve_submit {admits : Bool} {r : TrajectoryRequest} {i : ℕ} (h : l.serve admits (.submit r) = .ok (i, l')) :
    Change (some (.submit r)) l l' ∧ Target (.submit r) i l' ∧ Known i l' := by
  have habout : ∀ j, Op.submit r = .release j ∨ Op.submit r = .cancel j ∨ Op.submit r = .status j → i = j := by
    intro j hj
    rcases hj with hj | hj | hj <;> cases hj
  unfold Ledger.serve at h
  dsimp only at h
  split at h
  · rename_i k hk
    split_ifs at h with hr
    obtain ⟨rfl, rfl⟩ := Prod.mk.inj (Except.ok.inj h)
    obtain ⟨e, he, rfl⟩ := Option.map_eq_some_iff.mp hr
    obtain ⟨e', he', hknown, -⟩ := byRequest_some hk
    obtain rfl := Option.some.inj (he.symm.trans he')
    exact ⟨.refl _ l, ⟨⟨e, he, fun r' hr' => Op.submit.inj hr', fun j hj => Op.noConfusion hj⟩, habout⟩, e, he, hknown⟩
  · obtain ⟨rfl, rfl⟩ := Prod.mk.inj (Except.ok.inj h)
    refine ⟨⟨fun i e he => ?_, fun i e' hn hs => ?_⟩, ⟨⟨l.admission admits r, List.getElem?_concat_length,
      fun r' hr' => Op.submit.inj hr', fun j hj => Op.noConfusion hj⟩, habout⟩, _, List.getElem?_concat_length, rfl⟩
    · refine ⟨e, ?_, .refl e, .inl, .inl⟩
      rw [List.getElem?_append_left (List.getElem?_eq_some_iff.mp he).1, he]
    · rcases of_append hs with hs | ⟨-, rfl⟩
      · rw [hn] at hs
        cases hs
      · exact ⟨rfl, rfl, rfl⟩

/-- a call answers with the execution that it is about -/
theorem serve_ok {admits : Bool} {o : Op} {i : ℕ} (h : l.serve admits o = .ok (i, l')) :
    Change (some o) l l' ∧ Target o i l' ∧ Known i l' := by
  cases o with
  | submit r => exact serve_submit h
  | release j =>
    unfold Ledger.serve at h
    dsimp only at h
    split at h
    · cases h
    · rename_i e he
      have hpair : i = j ∧ (l' = l ∨ l' = l.modify j fun e => { e with released := true }) := by
        split_ifs at h
        · obtain ⟨rfl, rfl⟩ := Prod.mk.inj (Except.ok.inj h)
          exact ⟨rfl, .inl rfl⟩
        · obtain ⟨rfl, rfl⟩ := Prod.mk.inj (Except.ok.inj h)
          exact ⟨rfl, .inr rfl⟩
      obtain ⟨rfl, hl⟩ := hpair
      have hchange : Change (some (.release i)) l l' := by
        rcases hl with rfl | rfl
        · exact .refl _ _
        · exact change_modify fun e _ => ⟨⟨rfl, fun _ => rfl, fun _ => rfl, id, id, .inl, fun h _ => h⟩, fun _ => .inr rfl, .inl⟩
      have hknown : Known i l' := by
        rcases hl with rfl | rfl
        · exact ⟨e, get_ok he⟩
        · exact ⟨{ e with released := true }, by rw [List.getElem?_modify_eq, (get_ok he).1]; rfl, (get_ok he).2⟩
      obtain ⟨e', he', hk'⟩ := hknown
      exact ⟨hchange, ⟨⟨e', he', fun r hr => Op.noConfusion hr, fun k hk => Op.noConfusion hk⟩,
        fun k hk => by rcases hk with hk | hk | hk <;> cases hk; rfl⟩, e', he', hk'⟩
  | cancel j =>
    unfold Ledger.serve at h
    dsimp only at h
    split at h
    · cases h
    · rename_i e he
      obtain ⟨rfl, rfl⟩ := Prod.mk.inj (Except.ok.inj h)
      have hchange : Change (some (.cancel j)) l (l.modify j fun e => { e with cancelled := true }) :=
        change_modify fun e _ => ⟨⟨rfl, fun _ => rfl, id, fun _ => rfl, id, .inl, fun h _ => h⟩, .inl, fun _ => .inr rfl⟩
      have hentry : (l.modify j fun e => { e with cancelled := true })[j]? = some { e with cancelled := true } := by
        rw [List.getElem?_modify_eq, (get_ok he).1]
        rfl
      exact ⟨hchange, ⟨⟨_, hentry, fun r hr => Op.noConfusion hr, fun _ _ => rfl⟩,
        fun k hk => by rcases hk with hk | hk | hk <;> cases hk; rfl⟩, _, hentry, (get_ok he).2⟩
  | status j =>
    unfold Ledger.serve at h
    dsimp only at h
    split at h
    · cases h
    · rename_i e he
      obtain ⟨rfl, rfl⟩ := Prod.mk.inj (Except.ok.inj h)
      exact ⟨.refl _ l, ⟨⟨e, (get_ok he).1, fun r hr => Op.noConfusion hr, fun k hk => Op.noConfusion hk⟩,
        fun k hk => by rcases hk with hk | hk | hk <;> cases hk; rfl⟩, e, get_ok he⟩

theorem sound_nil : Ledger.Sound [] where
  entry i e h := by rw [List.getElem?_nil] at h; cases h
  one i j e f h := by rw [List.getElem?_nil] at h; cases h
  ids i j e f h := by rw [List.getElem?_nil] at h; cases h

theorem sound_modify {i : ℕ} {f : Entry → Entry} (h : l.Sound) (hf : ∀ e, e.Sound → (f e).Sound)
    (hlive : ∀ e, (f e).live = true → e.live = true) (hid : ∀ e, (f e).request = e.request)
    (hknown : ∀ e, (f e).known = true → e.known = true) : Ledger.Sound (l.modify i f) := by
  have hat : ∀ (j : ℕ) (e' : Entry), (l.modify i f)[j]? = some e' → ∃ e, l[j]? = some e ∧ (e' = e ∨ e' = f e) := by
    intro j e' hj
    rw [List.getElem?_modify] at hj
    obtain ⟨e, he, rfl⟩ := Option.map_eq_some_iff.mp hj
    refine ⟨e, he, ?_⟩
    split_ifs
    · exact .inr rfl
    · exact .inl rfl
  constructor
  · intro j e' hj
    obtain ⟨e, he, rfl | rfl⟩ := hat j e' hj
    · exact h.entry j _ he
    · exact hf e (h.entry j e he)
  · intro j k e' f' hj hk hje hkf
    obtain ⟨e, he, hee⟩ := hat j e' hj
    obtain ⟨g, hg, hgg⟩ := hat k f' hk
    refine h.one j k e g he hg ?_ ?_
    · rcases hee with rfl | rfl
      · exact hje
      · exact hlive e hje
    · rcases hgg with rfl | rfl
      · exact hkf
      · exact hlive g hkf
  · intro j k e' f' hj hk hje hkf hsame
    obtain ⟨e, he, hee⟩ := hat j e' hj
    obtain ⟨g, hg, hgg⟩ := hat k f' hk
    have hre : e'.request = e.request := by
      rcases hee with rfl | rfl
      · rfl
      · exact hid e
    have hrg : f'.request = g.request := by
      rcases hgg with rfl | rfl
      · rfl
      · exact hid g
    rw [hre, hrg] at hsame
    refine h.ids j k e g he hg ?_ ?_ hsame
    · rcases hee with rfl | rfl
      · exact hje
      · exact hknown e hje
    · rcases hgg with rfl | rfl
      · exact hkf
      · exact hknown g hkf

theorem advance_sound {e : Entry} (h : e.Sound) (p : Phase) : (e.advance p).Sound := by
  unfold Entry.advance
  split
  case isTrue hmay =>
    unfold Entry.mayBecome at hmay
    obtain ⟨hlive, hmay⟩ := Bool.and_eq_true_iff.mp hmay
    refine ⟨fun hk => ?_, fun hb => ?_⟩
    · rw [h.forgotten hk] at hlive
      cases hlive
    · cases hends : p.ends with
      | some before =>
        have hover : p.begun = false := by cases p <;> first | rfl | cases hends
        rw [hover] at hb
        cases hb
      | none =>
        rw [hends] at hmay
        have hb' : p.begun = true := hb
        rw [hb'] at hmay
        simpa using (Bool.and_eq_true_iff.mp hmay).2
  case isFalse => exact h

theorem sound_act (h : l.Sound) (d : Deed) : Ledger.Sound (l.act d) := by
  cases d with
  | advance i p =>
    refine sound_modify h (fun e he => advance_sound he p) (fun e he => ?_) (fun e => (advance_later e p).request) fun e he => ?_
    · unfold Entry.advance at he
      split at he
      case isTrue hmay =>
        unfold Entry.mayBecome at hmay
        exact (Bool.and_eq_true_iff.mp hmay).1
      case isFalse => exact he
    · unfold Entry.advance at he
      split at he <;> exact he
  | prune i =>
    refine sound_modify h (fun e he => ?_) (fun e he => ?_) (fun e => (prune_later e).request) fun e he => ?_
    · unfold Entry.prune
      split
      case isTrue => exact he
      case isFalse hover => exact ⟨fun _ => Bool.eq_false_of_not_eq_true hover, he.begun⟩
    · unfold Entry.prune at he
      split at he <;> exact he
    · unfold Entry.prune at he
      split at he
      case isTrue => exact he
      case isFalse => cases he

theorem sound_acts (h : l.Sound) (ds : List Deed) : Ledger.Sound (l.acts ds) := by
  induction ds generalizing l with
  | nil => exact h
  | cons d ds ih => exact ih (sound_act h d)

theorem sound_serve {admits : Bool} {o : Op} {i : ℕ} (h : l.Sound) (hs : l.serve admits o = .ok (i, l')) : l'.Sound := by
  cases o with
  | submit r =>
    unfold Ledger.serve at hs
    dsimp only at hs
    split at hs
    · split_ifs at hs
      obtain ⟨rfl, rfl⟩ := Prod.mk.inj (Except.ok.inj hs)
      exact h
    · rename_i hnone
      obtain ⟨rfl, rfl⟩ := Prod.mk.inj (Except.ok.inj hs)
      have hnew : (l.admission admits r).Sound :=
        ⟨nofun, fun hb => by unfold Ledger.admission at hb; dsimp only at hb; split at hb <;> cases hb⟩
      -- a live execution keeps a new one from being admitted
      have hover : ∀ (j : ℕ) (e : Entry), l[j]? = some e → e.live = true → (l.admission admits r).live = false := by
        intro j e he hlive
        have hany : l.any Entry.live = true := List.any_eq_true.mpr ⟨e, List.mem_of_getElem? he, hlive⟩
        show (!(if (l.any Entry.live || !admits) = true then Phase.rejected else Phase.admitted).terminal) = false
        rw [hany]
        rfl
      constructor
      · intro j e he
        rcases of_append he with he | ⟨-, rfl⟩
        · exact h.entry j e he
        · exact hnew
      · intro j k e f he hf hle hlf
        rcases of_append he with he | ⟨rfl, rfl⟩
        · rcases of_append hf with hf | ⟨rfl, rfl⟩
          · exact h.one j k e f he hf hle hlf
          · rw [hover j e he hle] at hlf
            cases hlf
        · rcases of_append hf with hf | ⟨rfl, rfl⟩
          · rw [hover k f hf hlf] at hle
            cases hle
          · rfl
      · intro j k e f he hf hke hkf hsame
        rcases of_append he with he | ⟨rfl, rfl⟩
        · rcases of_append hf with hf | ⟨rfl, rfl⟩
          · exact h.ids j k e f he hf hke hkf hsame
          · exact absurd hsame (byRequest_none hnone he hke)
        · rcases of_append hf with hf | ⟨rfl, rfl⟩
          · exact absurd hsame.symm (byRequest_none hnone hf hkf)
          · rfl
  | release j =>
    unfold Ledger.serve at hs
    dsimp only at hs
    split at hs
    · cases hs
    · split_ifs at hs
      · obtain ⟨rfl, rfl⟩ := Prod.mk.inj (Except.ok.inj hs)
        exact h
      · obtain ⟨rfl, rfl⟩ := Prod.mk.inj (Except.ok.inj hs)
        exact sound_modify h (fun e he => ⟨he.forgotten, fun _ => .inl rfl⟩) (fun _ he => he) (fun _ => rfl) fun _ he => he
  | cancel j =>
    unfold Ledger.serve at hs
    dsimp only at hs
    split at hs
    · cases hs
    · obtain ⟨rfl, rfl⟩ := Prod.mk.inj (Except.ok.inj hs)
      exact sound_modify h (fun e he => ⟨he.forgotten, he.begun⟩) (fun _ he => he) (fun _ => rfl) fun _ he => he
  | status j =>
    unfold Ledger.serve at hs
    dsimp only at hs
    split at hs
    · cases hs
    · obtain ⟨rfl, rfl⟩ := Prod.mk.inj (Except.ok.inj hs)
      exact h

/-! ## what a call comes to -/

section
open Effect

variable {env : Env} {o : Op} {w w' : World} {i : ℕ}

/-- the world after calls with at most one effect -/
structure Onward (op : Option Op) (w w' : World) : Prop where
  calls : w.calls < w'.calls
  change : Change op w.ledger w'.ledger
  sound : w.ledger.Sound → w'.ledger.Sound

theorem Onward.trans_idle (h : Onward op w w') {w'' : World} (h' : Onward none w' w'') : Onward op w w'' :=
  ⟨h.calls.trans h'.calls, h.change.trans_idle h'.change, fun hs => h'.sound (h.sound hs)⟩

/-- the reply says what has become of the execution -/
structure Answers (o : Op) (r : Reply) (l l' : Ledger) : Prop where
  phase : l'[r.execution]?.map Entry.phase = some r.phase
  target : Target o r.execution l'
  sole : l.Sound → Sole r.execution l'

/-- there is no reply: the call was refused, or its reply was lost -/
inductive Missed (env : Env) (o : Op) (w w' : World) : CallError → Prop where
  | refused (text : String) (idle : Change none w.ledger w'.ledger)
      (unknown : ∀ j, o = .status j → unknownExecution text = true ∧ ∀ e, w'.ledger[j]? = some e → e.known = false) :
      Missed env o w w' (.refused text)
  | lost (loss : Loss) (reached : Bool) (fate : (env.turn w.calls).fate = .lost reached loss)
      (idle : reached = false → Change none w.ledger w'.ledger) : Missed env o w w' loss.error

theorem Missed.unknown_status {text : String} (h : Missed env (.status i) w w' (.refused text)) :
    unknownExecution text = true ∧ ∀ e, w'.ledger[i]? = some e → e.known = false := by
  generalize he : CallError.refused text = err at h
  cases h with
  | refused text' _ unknown =>
    obtain rfl := CallError.refused.inj he
    exact unknown i rfl
  | lost loss => cases loss <;> cases he

/-- a call that was refused -/
theorem Missed.idle_refused {text : String} (h : Missed env o w w' (.refused text)) (honward : Onward op w w') : Onward none w w' := by
  refine ⟨honward.calls, ?_, honward.sound⟩
  generalize he : CallError.refused text = err at h
  cases h with
  | refused text' idle => exact idle
  | lost loss => cases loss <;> cases he

theorem Missed.fate_lost {e : CallError} (h : Missed env o w w' e) (hne : ∀ text, e ≠ .refused text) :
    ∃ reached loss, (env.turn w.calls).fate = .lost reached loss := by
  cases h with
  | refused text => exact absurd rfl (hne text)
  | lost loss reached fate => exact ⟨reached, loss, fate⟩

theorem get_error {text : String} (h : l.get i = .error text) :
    unknownExecution text = true ∧ ∀ e, l[i]? = some e → e.known = false := by
  have hbase : ∀ t : String, unknownExecution ("unknown execution " ++ t) = true := fun t => by
    unfold unknownExecution
    refine decide_eq_true (List.IsPrefix.isInfix ⟨(" " ++ t).toList, ?_⟩)
    rw [String.toList_append, String.toList_append, ← List.append_assoc]
    rfl
  unfold Ledger.get at h
  split at h
  · rename_i e he
    split_ifs at h with hk
    obtain rfl := Except.error.inj h
    refine ⟨hbase _, fun e' he' => ?_⟩
    obtain rfl := Option.some.inj (he.symm.trans he')
    exact Bool.eq_false_of_not_eq_true hk
  · rename_i hnone
    obtain rfl := Except.error.inj h
    refine ⟨hbase _, fun e' he' => ?_⟩
    rw [hnone] at he'
    cases he'

theorem serve_error {admits : Bool} {text : String} (h : l.serve admits o = .error text) (j : ℕ) (hj : o = .status j) :
    unknownExecution text = true ∧ ∀ e, l[j]? = some e → e.known = false := by
  subst hj
  unfold Ledger.serve at h
  dsimp only at h
  split at h
  · rename_i t ht
    obtain rfl := Except.error.inj h
    exact get_error ht
  · cases h

theorem found_onward : Onward none w (w.next (w.found env)) where
  calls := Nat.lt_succ_self _
  change := change_acts _ _
  sound h := sound_acts h _

theorem served_onward {r : ℕ × Ledger} (h : w.served env o = .ok r) :
    Onward (some o) w (w.next r.2) ∧ Target o r.1 r.2 ∧ (w.ledger.Sound → Sole r.1 r.2) := by
  unfold World.served at h
  cases hs : (w.found env).serve (env.turn w.calls).admits o with
  | error text =>
    rw [hs] at h
    cases h
  | ok p =>
    rw [hs] at h
    obtain rfl := Except.ok.inj h
    obtain ⟨hchange, htarget, hknown⟩ := serve_ok hs
    have hwithin := change_acts p.2 (env.turn w.calls).within
    refine ⟨⟨Nat.lt_succ_self _, ?_, fun h => sound_acts (sound_serve (sound_acts h _) hs) _⟩, htarget.later hwithin, ?_⟩
    · exact (Change.idle_trans (change_acts _ _) hchange).trans_idle hwithin
    · obtain ⟨e, he, hk⟩ := hknown
      exact fun h => (sole_of_known (sound_serve (sound_acts h _) hs) ⟨e, he, hk⟩).later hwithin he

theorem answer_ends : Ends (fun r w' => Onward (some o) w w' ∧ Answers o r w.ledger w'.ledger)
    (fun e w' => Onward none w w' ∧ Missed env o w w' e) (answer env o) w := by
  unfold answer Ends
  beta_reduce
  cases hs : w.served env o with
  | ok r =>
    obtain ⟨honward, htarget, hsole⟩ := served_onward hs
    show Onward (some o) w (w.next r.2) ∧ Answers o _ w.ledger r.2
    refine ⟨honward, ?_, htarget, hsole⟩
    obtain ⟨e, he, -⟩ := htarget.entry
    show r.2[r.1]?.map Entry.phase = some ((r.2[r.1]?.map Entry.phase).getD .rejected)
    rw [he]
    rfl
  | error text =>
    show Onward none w (w.next (w.found env)) ∧ Missed env o w (w.next (w.found env)) (.refused text)
    refine ⟨found_onward, .refused text (change_acts _ _) fun j hj => ?_⟩
    unfold World.served at hs
    cases hf : (w.found env).serve (env.turn w.calls).admits o with
    | ok p =>
      rw [hf] at hs
      cases hs
    | error t =>
      rw [hf] at hs
      obtain rfl := Except.error.inj hs
      exact serve_error hf j hj

theorem lose_ends {reached : Bool} {loss : Loss} (hfate : (env.turn w.calls).fate = .lost reached loss) :
    Ends (fun _ _ => False) (fun e w' => Onward (some o) w w' ∧ Missed env o w w' e) (lose env o reached loss) w := by
  unfold lose Ends
  beta_reduce
  have hidle : Onward (some o) w (w.next (w.found env)) :=
    ⟨Nat.lt_succ_self _, (change_acts _ _).of_idle, fun h => sound_acts h _⟩
  cases reached with
  | false =>
    show Onward (some o) w (w.next (w.found env)) ∧ Missed env o w (w.next (w.found env)) loss.error
    exact ⟨hidle, .lost loss false hfate fun _ => change_acts _ _⟩
  | true =>
    cases hs : w.served env o with
    | ok r =>
      show Onward (some o) w (w.next r.2) ∧ Missed env o w (w.next r.2) loss.error
      exact ⟨(served_onward hs).1, .lost loss true hfate nofun⟩
    | error text =>
      show Onward (some o) w (w.next (w.found env)) ∧ Missed env o w (w.next (w.found env)) loss.error
      exact ⟨hidle, .lost loss true hfate nofun⟩

/-- **What a call comes to.** -/
theorem ask_ends : Ends (fun r w' => Onward (some o) w w' ∧ Answers o r w.ledger w'.ledger)
    (fun e w' => Onward (some o) w w' ∧ Missed env o w w' e) (ask env o) w := by
  have hanswer := (@answer_ends env o w).mono (fun _ _ h => h)
    fun _ _ h => (⟨⟨h.1.calls, h.1.change.of_idle, h.1.sound⟩, h.2⟩ : Onward (some o) w _ ∧ Missed env o w _ _)
  unfold ask
  rw [ends_bind, ends_get]
  split
  · exact hanswer
  · refine ends_ite (fun howned => ?_) fun _ => hanswer
    refine ⟨⟨Nat.lt_succ_self _, (change_acts _ _).of_idle, fun h => sound_acts h _⟩, .refused _ (change_acts _ _) fun j hj => ?_⟩
    rw [hj] at howned
    cases howned
  · rename_i reached loss hfate
    exact (lose_ends hfate).mono (fun _ _ h => h.elim) fun _ _ h => h

theorem ask_calls : Holds (fun w' => w'.calls = w.calls + 1) (ask env o) w := by
  have hanswer : Holds (fun w' => w'.calls = w.calls + 1) (answer env o) w := by
    unfold answer Holds Ends
    beta_reduce
    cases w.served env o <;> rfl
  unfold ask Holds
  rw [ends_bind, ends_get]
  split
  · exact hanswer
  · exact ends_ite (fun _ => rfl) fun _ => hanswer
  · rename_i reached loss _
    unfold lose Ends
    beta_reduce
    cases reached with
    | false => rfl
    | true => cases w.served env o <;> rfl

/-- the reply to a release that has nothing to take is lost -/
theorem lost_release (hno : ∀ loss, (env.turn w.calls).fate = .lost true loss → ∀ e, (w.found env)[i]? = some e → e.phase ≠ .admitted)
    {e : CallError} (h : ask env (.release i) w = .error e w') (honward : Onward (some (.release i)) w w')
    (hm : Missed env (.release i) w w' e) : Onward none w w' := by
  refine ⟨honward.calls, ?_, honward.sound⟩
  cases hm with
  | refused text idle => exact idle
  | lost loss reached fate idle =>
    cases reached with
    | false => exact idle rfl
    | true =>
      have hserved : ∀ r, w.served env (.release i) = .ok r → Change none w.ledger r.2 := by
        intro r hr
        unfold World.served Ledger.serve at hr
        dsimp only at hr
        cases hg : (w.found env).get i with
        | error text =>
          rw [hg] at hr
          cases hr
        | ok x =>
          rw [hg] at hr
          dsimp only at hr
          rw [if_pos (hno loss fate x (get_ok hg).1)] at hr
          obtain rfl := Except.ok.inj hr
          exact (change_acts _ _).idle_trans (change_acts _ _)
      have hrun : ask env (.release i) w = lose env (.release i) true loss w := by
        show (match (env.turn w.calls).fate with
          | .answered => answer env (.release i)
          | .refused text => _
          | .lost reached loss => lose env (.release i) reached loss) w = _
        rw [fate]
      rw [hrun] at h
      unfold lose at h
      cases hs : w.served env (.release i) with
      | ok r =>
        simp only [hs] at h
        cases h
        exact hserved r hs
      | error text =>
        simp only [hs] at h
        cases h
        exact change_acts _ _

theorem status_idle (h : Onward (some (.status i)) w w') : Onward none w w' := by
  refine ⟨h.calls, ⟨fun j e he => ?_, fun j e' hn hs => ?_⟩, h.sound⟩
  · obtain ⟨e', he', hlater, hr, hc⟩ := h.change.old j e he
    exact ⟨e', he', hlater, fun h0 => .inl ((hr h0).resolve_right nofun), fun h0 => .inl ((hc h0).resolve_right nofun)⟩
  · obtain ⟨hop, -⟩ := h.change.new j e' hn hs
    cases hop

/-- the reply says that the execution has ended -/
structure Ended (i : ℕ) (r : Reply) (l l' : Ledger) : Prop where
  terminal : r.terminal = true
  execution : r.execution = i
  entry : ∃ e, l'[i]? = some e ∧ e.phase = r.phase
  sole : l.Sound → Sole i l'

theorem ended_of_status {r : Reply} (hr : r.terminal = true) (h : Answers (.status i) r l l') : Ended i r l l' := by
  obtain rfl := h.target.about i (.inr (.inr rfl))
  exact ⟨hr, rfl, Option.map_eq_some_iff.mp h.phase, h.sole⟩

theorem poll_ends (n : ℕ) : Ends (fun r w' => Onward none w w' ∧ Ended i r w.ledger w'.ledger)
    (fun _ w' => Onward none w w') (poll env i n) w := by
  induction n generalizing w with
  | zero =>
    unfold poll
    rw [ends_bind]
    refine ask_ends.mono (fun r t ht => ?_) fun _ _ h => status_idle h.1
    exact ends_ite (fun hr => ⟨status_idle ht.1, ended_of_status hr ht.2⟩) fun _ => status_idle ht.1
  | succ n ih =>
    unfold poll
    rw [ends_bind]
    refine ask_ends.mono (fun r t ht => ?_) fun _ _ h => status_idle h.1
    refine ends_ite (fun hr => ⟨status_idle ht.1, ended_of_status hr ht.2⟩) fun _ => ?_
    refine ih.mono (fun _ _ h => ⟨(status_idle ht.1).trans_idle h.1, ?_⟩) fun _ _ h => (status_idle ht.1).trans_idle h
    exact ⟨h.2.terminal, h.2.execution, h.2.entry, fun hs => h.2.sole (ht.1.sound hs)⟩

/-- a cancel that returns has ended the execution -/
theorem cancel_ends : Ends (fun r w' => Onward (some (.cancel i)) w w' ∧ Ended i r w.ledger w'.ledger ∧
      ∀ e, w'.ledger[i]? = some e → e.cancelled = true)
    (fun _ w' => Onward (some (.cancel i)) w w') (cancel env i) w := by
  unfold cancel wait
  rw [ends_bind]
  refine ask_ends.mono (fun _ t ht => ?_) fun _ _ h => h.1
  rw [ends_bind, ends_get]
  refine (poll_ends _).mono (fun _ u hu => ⟨ht.1.trans_idle hu.1,
    ⟨hu.2.terminal, hu.2.execution, hu.2.entry, fun hs => hu.2.sole (ht.1.sound hs)⟩, fun e he => ?_⟩) fun _ _ h => ht.1.trans_idle h
  obtain ⟨e', he', -, hcancelled⟩ := ht.2.target.entry
  obtain rfl := ht.2.target.about i (.inr (.inl rfl))
  obtain ⟨f, hf, hlater, -⟩ := hu.1.change.old _ e' he'
  obtain rfl := Option.some.inj (hf.symm.trans he)
  exact hlater.cancelled (hcancelled _ rfl)

end

end ArmControl.Executions
