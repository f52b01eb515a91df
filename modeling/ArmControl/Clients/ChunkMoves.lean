import ArmControl.Lib.Since
import ArmControl.Clients.Chunks

/-!
# The life of a chunk

* `Fit`, `InOrder`, `outcomes`   the rules of the log;
* `View`, `Move`                 what the rules look at, and one small change of it;
* `Sound`                        what every move keeps, with one lemma for each of its parts;
* `Move.sound`, `Move.ordered`, `Move.kept`.

A move that loses or displaces a waiting chunk carries the condition under which the client makes it (`bad`).
-/

namespace ArmControl.Clients.Chunks

open History Execution.Values

/-! ## the rules -/

def IsRevision : Entry → Prop
  | .revised _ _ _ _ _ => True
  | _ => False

/-- the later entry ends the doubt about the revision -/
def settles : Entry → Entry → Prop
  | .revised k _ _ _ _, .settled k' _ => k' = k
  | .revised k _ _ _ _, .refused k' _ => k' = k
  | .revised _ _ ss _ _, .gone ss' => ss' = ss
  | _, _ => False

/-- a submission was refused, or its revision ended without having been selected -/
def Dead (k : ℕ) (log : List Entry) : Prop :=
  .settled k .refused ∈ log ∨ .settled k .ended ∈ log ∨ ∃ chunk, .refused k chunk ∈ log

def Entry.isRenewed : Entry → Bool
  | .renewed => true
  | _ => false

/-- how many generations the log has seen -/
def generationOf (log : List Entry) : ℤ := log.countP Entry.isRenewed

/-- the chunk may be sent on the session, after `before` -/
structure Fit {σ : Type} (c : Config σ) (before : List Entry) (chunk : Chunk) (ss : ℕ) (now : ℤ) : Prop where
  generation : chunk.generation = generationOf before
  opened : .opened ss ∈ before
  live : .gone ss ∉ before ∧ .cancelling ss ∉ before
  age : ((now - chunk.observedNs : ℤ) : ℚ) / 10 ^ 9 ≤ c.maxAgeS
  order : ∀ k' chunk' ss' now' rev', .revised k' chunk' ss' now' rev' ∈ before → chunk'.generation = chunk.generation →
    Dead k' before ∨ chunk'.observedNs ≤ chunk.observedNs
  alone : Answered IsRevision settles before

def Sent {σ : Type} (c : Config σ) (before : List Entry) : Entry → Prop
  | .revised _ chunk ss now _ => Fit c before chunk ss now
  | _ => True

/-- a waiting chunk gives way to a newer observation only -/
def InOrder (_ : List Entry) : Entry → Prop
  | .replaced _ old by_ => old.observedNs ≤ by_.observedNs
  | _ => True

/-- the submission that an entry of the report is about -/
def Entry.outcome : Entry → Option ℕ
  | .late k _ | .refused k _ | .replaced k _ _ | .requested k _ => some k
  | _ => none

/-- how often a submission is reported -/
def outcomes (k : ℕ) (log : List Entry) : ℕ := log.countP fun o => o.outcome == some k

def lateId : Entry → Option String
  | .late _ chunk => some chunk.chunkId
  | _ => none

def refusedId : Entry → Option String
  | .refused _ chunk => some chunk.chunkId
  | _ => none

def replacedId : Entry → Option String
  | .replaced _ old _ => some old.chunkId
  | _ => none

def requestedId : Entry → Option String
  | .requested _ chunk => some chunk.chunkId
  | _ => none

/-- the lists of a report, by chunk id -/
structure Lists where
  late : List String
  refused : List String
  replaced : List String
  requested : List String

def Report.lists (r : Report) : Lists where
  late := r.late.map Prod.fst
  refused := r.refused.map Prod.fst
  replaced := r.replaced
  requested := r.requested

/-- the lists are what the log says; refusals of the RT come on top -/
structure Lists.Mirror (r : Lists) (log : List Entry) : Prop where
  late : r.late = log.filterMap lateId
  refused : (log.filterMap refusedId).Sublist r.refused
  replaced : r.replaced = log.filterMap replacedId
  requested : r.requested = log.filterMap requestedId

/-! ## moves -/

structure View where
  log : List Entry
  generation : ℤ
  session : Option StreamSession
  inflight : Option Inflight
  waiting : Option Submission
  sentObsNs : ℤ
  cancelPending : Bool
  submissions : ℕ
  nextOpen : ℕ
  lists : Lists
  /-- a chunk that is being looked at -/
  hand : Option Submission
  /-- a chunk whose revision is being sent -/
  sent : Option Submission

def View.add (v : View) (o : Entry) : View := { v with log := v.log ++ [o] }

inductive Move {σ : Type} (c : Config σ) (bad : Prop) (v : View) : View → Prop where
  | arrive (k : Chunk) (hhand : v.hand = none) : Move c bad v
      { v.add (.submitted v.submissions k) with submissions := v.submissions + 1, hand := some ⟨v.submissions, k⟩ }
  | take (w : Submission) (hhand : v.hand = none) (hf : v.inflight = none) (hw : v.waiting = some w) :
      Move c bad v { v with waiting := none, hand := some w }
  | late (w : Submission) (hw : v.hand = some w) : Move c bad v
      { v.add (.late w.number w.chunk) with
        hand := none, lists := { v.lists with late := v.lists.late ++ [w.chunk.chunkId] } }
  | refuse (w : Submission) (hw : v.hand = some w ∧ v.sent = none ∨ v.sent = some w ∧ v.hand = none) : Move c bad v
      { v.add (.refused w.number w.chunk) with
        hand := none, sent := none, lists := { v.lists with refused := v.lists.refused ++ [w.chunk.chunkId] } }
  | wait (w : Submission) (hw : v.hand = some w) (hnone : v.waiting = none) : Move c bad v { v with hand := none, waiting := some w }
  | replace (w old : Submission) (hw : v.hand = some w) (hold : v.waiting = some old)
      (horder : old.chunk.observedNs ≤ w.chunk.observedNs ∨ bad) : Move c bad v
      { v.add (.replaced old.number old.chunk w.chunk) with
        hand := none, waiting := some w, lists := { v.lists with replaced := v.lists.replaced ++ [old.chunk.chunkId] } }
  | revise (w : Submission) (ss : StreamSession) (now : ℤ) (rev : StreamRevision) (hw : v.hand = some w) (hsent : v.sent = none)
      (hss : v.session = some ss) (hopen : ss.closed = false) (hpending : v.cancelPending = false) (hf : v.inflight = none)
      (hgen : w.chunk.generation = v.generation) (hage : ((now - w.chunk.observedNs : ℤ) : ℚ) / 10 ^ 9 ≤ c.maxAgeS)
      (hnew : v.sentObsNs ≤ w.chunk.observedNs) : Move c bad v
      { v.add (.revised w.number w.chunk ss.serial now rev) with hand := none, sent := some w }
  | request (w : Submission) (rid : String) (hw : v.hand = some w ∧ v.sent = none ∨ v.sent = some w ∧ v.hand = none)
      (hf : v.inflight = none) : Move c bad v
      { v.add (.requested w.number w.chunk) with
        hand := none, sent := none, inflight := some ⟨w, rid⟩
        lists := { v.lists with requested := v.lists.requested ++ [w.chunk.chunkId] } }
  | land (f : Inflight) (fate : Fate) (hf : v.inflight = some f) (hfate : fate = .refused ∨ fate = .ended ∨ fate = .selected) :
      Move c bad v
      { v.add (.settled f.submission.number fate) with
        inflight := none
        sentObsNs := if fate = .selected then max v.sentObsNs f.submission.chunk.observedNs else v.sentObsNs }
  /-- refusals that the supervisor reports of what was requested -/
  | list (refused : List String) (h : v.lists.refused.Sublist refused) : Move c bad v
      { v with lists := { v.lists with refused := refused } }
  | renew (hlost : v.waiting = none ∨ bad) (hidle : v.hand = none ∧ v.sent = none) : Move c bad v
      { v.add .renewed with generation := v.generation + 1, inflight := none, waiting := none, cancelPending := true }
  | ask (ss : StreamSession) (hss : v.session = some ss) (hpending : v.cancelPending = true) :
      Move c bad v (v.add (.cancelling ss.serial))
  | keep (ss ss' : StreamSession) (hss : v.session = some ss) (hserial : ss'.serial = ss.serial) (hclosed : ss'.closed = ss.closed)
      : Move c bad v { v with session := some ss' }
  | confirm (hss : v.session = none) : Move c bad v { v with cancelPending := false }
  | gone (ss : StreamSession) (hss : v.session = some ss) : Move c bad v
      { v.add (.gone ss.serial) with session := none, cancelPending := false }
  | bump (hss : v.session = none) (hidle : v.hand = none ∧ v.sent = none ∧ v.inflight = none ∧ v.waiting = none) : Move c bad v
      { v.add .renewed with generation := v.generation + 1 }
  | draw (n : ℕ) (hn : v.nextOpen ≤ n) : Move c bad v { v with nextOpen := n }
  /-- a stream of a generation in which nothing was sent -/
  | open_ (ss : StreamSession) (hss : v.session = none) (hopen : ss.closed = false) (hserial : v.nextOpen ≤ ss.serial)
      (hidle : v.hand = none ∧ v.sent = none ∧ v.inflight = none ∧ v.waiting = none) (hpending : v.cancelPending = false)
      (hnew : ∃ before, v.log = before ++ [Entry.renewed]) : Move c bad v
      { v.add (.opened ss.serial) with session := some ss, nextOpen := ss.serial + 1, sentObsNs := -1 }
  | finish (ss : StreamSession) (hss : v.session = some ss) (hlost : v.waiting = none ∨ bad)
      (hidle : v.hand = none ∧ v.sent = none) : Move c bad v
      { v.add (.gone ss.serial) with session := some { ss with closed := true }, inflight := none, waiting := none }

/-! ## what every move keeps -/

/-- the open session still waits for the fate of the revision -/
def View.Waits (v : View) (o : Entry) : Prop :=
  ∃ k chunk ss now rev, o = .revised k chunk ss.serial now rev ∧ v.session = some ss ∧ ss.closed = false ∧
    (v.cancelPending = true ∨ (∃ f, v.inflight = some f ∧ f.submission.number = k) ∨ ∃ w, v.sent = some w ∧ w.number = k)

def holds (k : ℕ) (w : Option Submission) : ℕ := if w.map Submission.number = some k then 1 else 0

/-- how often a submission is reported, or still at hand -/
def View.tally (v : View) (k : ℕ) : ℕ := outcomes k v.log + holds k v.waiting + holds k v.hand + holds k v.sent

structure Sound {σ : Type} (c : Config σ) (v : View) : Prop where
  fit : Justified (Sent c) v.log
  generation : v.generation = generationOf v.log
  fate : Answered (fun o => IsRevision o ∧ ¬ v.Waits o) settles v.log
  order : ∀ ss₀, v.session = some ss₀ → ss₀.closed = false → ∀ k chunk ss now rev, .revised k chunk ss now rev ∈ v.log →
    chunk.generation = v.generation → Dead k v.log ∨ chunk.observedNs ≤ v.sentObsNs ∨
      (∃ f, v.inflight = some f ∧ f.submission = ⟨k, chunk⟩) ∨ v.sent = some ⟨k, chunk⟩
  stream : ∀ ss, v.session = some ss → .opened ss.serial ∈ v.log ∧
    (ss.closed = false → .gone ss.serial ∉ v.log ∧ (v.cancelPending = false → .cancelling ss.serial ∉ v.log))
  numbers : ∀ n, .opened n ∈ v.log ∨ .gone n ∈ v.log ∨ .cancelling n ∈ v.log → n < v.nextOpen
  counts : ∀ k, v.tally k ≤ 1 ∧ (v.submissions ≤ k → v.tally k = 0)
  mirror : v.lists.Mirror v.log

section
variable {σ : Type} {c : Config σ} {bad : Prop} {v v' : View} {o : Entry} {log : List Entry}

theorem generationOf_snoc (log : List Entry) (o : Entry) :
    generationOf (log ++ [o]) = generationOf log + if o.isRenewed then 1 else 0 := by
  unfold generationOf
  rw [List.countP_append, List.countP_singleton]
  push_cast
  rfl

theorem generationOf_mono {p q : List Entry} : generationOf p ≤ generationOf (p ++ q) := by
  unfold generationOf
  rw [List.countP_append]
  push_cast
  omega

theorem Dead.snoc {k : ℕ} (h : Dead k log) (o : Entry) : Dead k (log ++ [o]) := by
  rcases h with h | h | ⟨chunk, h⟩
  · exact .inl (List.mem_append_left _ h)
  · exact .inr (.inl (List.mem_append_left _ h))
  · exact .inr (.inr ⟨chunk, List.mem_append_left _ h⟩)

/-- what was sent belongs to a generation that the log has seen -/
theorem generation_le (h : Justified (Sent c) log) {k : ℕ} {chunk : Chunk} {ss : ℕ} {now : ℤ} {rev : StreamRevision}
    (hr : .revised k chunk ss now rev ∈ log) : chunk.generation ≤ generationOf log := by
  obtain ⟨p, q, rfl⟩ := List.mem_iff_append.mp hr
  have hfit : Fit c p chunk ss now := h p _ q rfl
  rw [hfit.generation]
  exact generationOf_mono

theorem Move.fit (hs : Sound c v) (h : Move c bad v v') : Justified (Sent c) v'.log := by
  cases h with
  | revise w ss now rev hw hsent hss hopen hpending hf hgen hage hnew =>
    refine hs.fit.snoc (?_ : Fit c v.log w.chunk ss.serial now)
    obtain ⟨hopened, hlive⟩ := hs.stream ss hss
    refine ⟨hgen.trans hs.generation, hopened, ⟨(hlive hopen).1, (hlive hopen).2 hpending⟩, hage, ?_, ?_⟩
    · intro k' chunk' ss' now' rev' hr hsame
      rcases hs.order ss hss hopen k' chunk' ss' now' rev' hr (hsame.trans hgen) with hd | hle | ⟨f, hf', -⟩ | hsent'
      · exact .inl hd
      · exact .inr (hle.trans hnew)
      · exact absurd (hf.symm.trans hf') nofun
      · exact absurd (hsent.symm.trans hsent') nofun
    · refine hs.fate.mono fun a ha => ⟨ha, ?_⟩
      rintro ⟨k, chunk, ss', now', rev', -, -, -, hp | ⟨f, hf', -⟩ | ⟨w', hw', -⟩⟩
      · exact absurd (hpending.symm.trans hp) nofun
      · exact absurd (hf.symm.trans hf') nofun
      · exact absurd (hsent.symm.trans hw') nofun
  | _ => first | exact hs.fit | exact hs.fit.snoc trivial

theorem Move.generation (hs : Sound c v) (h : Move c bad v v') : v'.generation = generationOf v'.log := by
  have hquiet : ∀ o : Entry, o.isRenewed = false → v.generation = generationOf (v.log ++ [o]) := fun o ho => by
    rw [generationOf_snoc, ho, hs.generation]
    exact (add_zero _).symm
  have hnew : v.generation + 1 = generationOf (v.log ++ [Entry.renewed]) := by
    rw [generationOf_snoc, hs.generation]
    rfl
  cases h with
  | renew => exact hnew
  | bump => exact hnew
  | _ => first | exact hs.generation | exact hquiet _ rfl

/-- what the new entry does not settle must still be waited for -/
theorem Sound.fate_snoc (hs : Sound c v) (ho : ¬ IsRevision o) (hw : ∀ a, v.Waits a → v'.Waits a ∨ settles a o)
    (hlog : v'.log = v.log ++ [o]) : Answered (fun a => IsRevision a ∧ ¬ v'.Waits a) settles v'.log := by
  rw [hlog]
  exact Answered.close (hs.fate.mono fun a ha => ⟨ha.1.1, fun hwait => (hw a hwait).elim ha.1.2 ha.2⟩) fun h => ho h.1

theorem Sound.fate_same (hs : Sound c v) (hw : ∀ a, v.Waits a → v'.Waits a) (hlog : v'.log = v.log) :
    Answered (fun a => IsRevision a ∧ ¬ v'.Waits a) settles v'.log := by
  rw [hlog]
  exact hs.fate.mono fun a ha => ⟨ha.1, mt (hw a) ha.2⟩

theorem Move.fate (hs : Sound c v) (h : Move c bad v v') :
    Answered (fun a => IsRevision a ∧ ¬ v'.Waits a) settles v'.log := by
  cases h with
  | take | wait | list | draw => exact hs.fate_same (fun _ ha => ha) rfl
  | arrive | late | replace | ask => exact hs.fate_snoc id (fun _ ha => .inl ha) rfl
  | refuse w hw =>
    refine hs.fate_snoc id ?_ rfl
    rintro a ⟨k, chunk, ss, now, rev, rfl, hss, hopen, hp | hf | ⟨w', hw', hk⟩⟩
    · exact .inl ⟨k, chunk, ss, now, rev, rfl, hss, hopen, .inl hp⟩
    · exact .inl ⟨k, chunk, ss, now, rev, rfl, hss, hopen, .inr (.inl hf)⟩
    · rcases hw with ⟨-, hnone⟩ | ⟨hsome, -⟩
      · exact absurd (hnone.symm.trans hw') nofun
      · obtain rfl := Option.some.inj (hsome.symm.trans hw')
        exact .inr hk
  | revise w ss now rev hw hsent hss hopen =>
    refine Answered.snoc (hs.fate.mono fun a ha => ⟨ha.1, ?_⟩) fun h =>
      h.2 ⟨w.number, w.chunk, ss, now, rev, rfl, hss, hopen, .inr (.inr ⟨w, rfl, rfl⟩)⟩
    refine mt ?_ ha.2
    rintro ⟨k, chunk, ss, now, rev, rfl, hss, hopen, hp | hf | ⟨w', hw', -⟩⟩
    · exact ⟨k, chunk, ss, now, rev, rfl, hss, hopen, .inl hp⟩
    · exact ⟨k, chunk, ss, now, rev, rfl, hss, hopen, .inr (.inl hf)⟩
    · exact absurd (hsent.symm.trans hw') nofun
  | request w rid hw hf =>
    refine hs.fate_snoc id ?_ rfl
    rintro a ⟨k, chunk, ss, now, rev, rfl, hss, hopen, hp | ⟨f, hf', -⟩ | ⟨w', hw', hk⟩⟩
    · exact .inl ⟨k, chunk, ss, now, rev, rfl, hss, hopen, .inl hp⟩
    · exact absurd (hf.symm.trans hf') nofun
    · rcases hw with ⟨-, hnone⟩ | ⟨hsome, -⟩
      · exact absurd (hnone.symm.trans hw') nofun
      · obtain rfl := Option.some.inj (hsome.symm.trans hw')
        exact .inl ⟨k, chunk, ss, now, rev, rfl, hss, hopen, .inr (.inl ⟨⟨w, rid⟩, rfl, hk⟩)⟩
  | land f fate hf =>
    refine hs.fate_snoc id ?_ rfl
    rintro a ⟨k, chunk, ss, now, rev, rfl, hss, hopen, hp | ⟨f', hf', hk⟩ | hsent⟩
    · exact .inl ⟨k, chunk, ss, now, rev, rfl, hss, hopen, .inl hp⟩
    · obtain rfl := Option.some.inj (hf.symm.trans hf')
      exact .inr hk
    · exact .inl ⟨k, chunk, ss, now, rev, rfl, hss, hopen, .inr (.inr hsent)⟩
  | renew =>
    refine hs.fate_snoc id ?_ rfl
    rintro a ⟨k, chunk, ss, now, rev, rfl, hss, hopen, -⟩
    exact .inl ⟨k, chunk, ss, now, rev, rfl, hss, hopen, .inl rfl⟩
  | keep ss ss' hss hserial hclosed =>
    refine hs.fate_same ?_ rfl
    rintro a ⟨k, chunk, ss₁, now, rev, rfl, hss₁, hopen, hcase⟩
    obtain rfl := Option.some.inj (hss.symm.trans hss₁)
    exact ⟨k, chunk, ss', now, rev, by rw [hserial], rfl, hclosed.trans hopen, hcase⟩
  | confirm hss =>
    refine hs.fate_same ?_ rfl
    rintro a ⟨k, chunk, ss₁, now, rev, rfl, hss₁, -⟩
    exact absurd (hss.symm.trans hss₁) nofun
  | gone ss hss =>
    refine hs.fate_snoc id ?_ rfl
    rintro a ⟨k, chunk, ss₁, now, rev, rfl, hss₁, -⟩
    obtain rfl := Option.some.inj (hss.symm.trans hss₁)
    exact .inr rfl
  | bump hss =>
    refine hs.fate_snoc id ?_ rfl
    rintro a ⟨k, chunk, ss₁, now, rev, rfl, hss₁, -⟩
    exact absurd (hss.symm.trans hss₁) nofun
  | open_ ss hss =>
    refine hs.fate_snoc id ?_ rfl
    rintro a ⟨k, chunk, ss₁, now, rev, rfl, hss₁, -⟩
    exact absurd (hss.symm.trans hss₁) nofun
  | finish ss hss =>
    refine hs.fate_snoc id ?_ rfl
    rintro a ⟨k, chunk, ss₁, now, rev, rfl, hss₁, -⟩
    obtain rfl := Option.some.inj (hss.symm.trans hss₁)
    exact .inr rfl

/-- the order of what was sent in this generation -/
def View.Ordered (v : View) : Prop :=
  ∀ ss₀, v.session = some ss₀ → ss₀.closed = false → ∀ k chunk ss now rev, .revised k chunk ss now rev ∈ v.log →
    chunk.generation = v.generation → Dead k v.log ∨ chunk.observedNs ≤ v.sentObsNs ∨
      (∃ f, v.inflight = some f ∧ f.submission = ⟨k, chunk⟩) ∨ v.sent = some ⟨k, chunk⟩

/-- an entry that is no revision, in a state that still knows what was sent -/
theorem Sound.order_snoc (hs : Sound c v) (ho : ¬ IsRevision o) (hlog : v'.log = v.log ++ [o])
    (hgen : v'.generation = v.generation) (hsession : v'.session = v.session)
    (hknown : ∀ k chunk, chunk.observedNs ≤ v.sentObsNs ∨ (∃ f, v.inflight = some f ∧ f.submission = ⟨k, chunk⟩) ∨
      v.sent = some ⟨k, chunk⟩ → Dead k v'.log ∨ chunk.observedNs ≤ v'.sentObsNs ∨
        (∃ f, v'.inflight = some f ∧ f.submission = ⟨k, chunk⟩) ∨ v'.sent = some ⟨k, chunk⟩) : v'.Ordered := by
  intro ss₀ hss₀ hopen k chunk ss now rev hr hsame
  rw [hlog] at hr
  rcases List.mem_append.mp hr with hr | hr
  · rcases hs.order ss₀ (hsession ▸ hss₀) hopen k chunk ss now rev hr (hsame.trans hgen) with hd | hrest
    · exact .inl (hlog ▸ hd.snoc o)
    · exact hknown k chunk hrest
  · obtain rfl := List.mem_singleton.mp hr
    exact absurd trivial ho

/-- a generation in which nothing was sent -/
theorem Sound.order_new (hs : Sound c v) (hrev : ∀ k chunk ss now rev, .revised k chunk ss now rev ∈ v'.log →
    .revised k chunk ss now rev ∈ v.log) (hgen : v'.generation = v.generation + 1) : v'.Ordered := by
  intro ss₀ _ _ k chunk ss now rev hr hsame
  have hle := generation_le hs.fit (hrev k chunk ss now rev hr)
  rw [hsame, hgen, hs.generation] at hle
  omega

theorem mem_snoc_of_ne {a : Entry} (h : a ∈ log ++ [o]) (hne : a ≠ o) : a ∈ log := by
  rcases List.mem_append.mp h with h | h
  · exact h
  · exact absurd (List.mem_singleton.mp h) hne

theorem Move.order (hs : Sound c v) (h : Move c bad v v') : v'.Ordered := by
  cases h with
  | take | wait | list | draw | confirm => exact hs.order
  | arrive | late | replace | ask => exact hs.order_snoc id rfl rfl rfl fun _ _ h => .inr h
  | refuse w hw =>
    refine hs.order_snoc id rfl rfl rfl ?_
    rintro k chunk (hle | hf | hsent)
    · exact .inr (.inl hle)
    · exact .inr (.inr (.inl hf))
    · rcases hw with ⟨-, hnone⟩ | ⟨hsome, -⟩
      · exact absurd (hnone.symm.trans hsent) nofun
      · obtain rfl := Option.some.inj (hsome.symm.trans hsent)
        exact .inl (.inr (.inr ⟨chunk, List.mem_append_right _ (List.mem_singleton.mpr rfl)⟩))
  | revise w ss now rev hw hsent hss hopen hpending hf =>
    intro ss₀ hss₀ hopen₀ k chunk ss' now' rev' hr hsame
    rcases List.mem_append.mp hr with hr | hr
    · rcases hs.order ss₀ hss₀ hopen₀ k chunk ss' now' rev' hr hsame with hd | hle | hf' | hsent'
      · exact .inl (hd.snoc _)
      · exact .inr (.inl hle)
      · exact .inr (.inr (.inl hf'))
      · exact absurd (hsent.symm.trans hsent') nofun
    · cases List.mem_singleton.mp hr
      exact .inr (.inr (.inr rfl))
  | request w rid hw hf =>
    refine hs.order_snoc id rfl rfl rfl ?_
    rintro k chunk (hle | ⟨f, hf', -⟩ | hsent)
    · exact .inr (.inl hle)
    · exact absurd (hf.symm.trans hf') nofun
    · rcases hw with ⟨-, hnone⟩ | ⟨hsome, -⟩
      · exact absurd (hnone.symm.trans hsent) nofun
      · exact .inr (.inr (.inl ⟨⟨w, rid⟩, rfl, Option.some.inj (hsome.symm.trans hsent)⟩))
  | land f fate hf hfate =>
    refine hs.order_snoc id rfl rfl rfl ?_
    have hmax : v.sentObsNs ≤ if fate = .selected then max v.sentObsNs f.submission.chunk.observedNs else v.sentObsNs := by
      split_ifs
      · exact le_max_left _ _
      · exact le_rfl
    rintro k chunk (hle | ⟨f', hf', hsub⟩ | hsent)
    · exact .inr (.inl (hle.trans hmax))
    · obtain rfl := Option.some.inj (hf.symm.trans hf')
      have hlast : Entry.settled f.submission.number fate ∈ v.log ++ [Entry.settled f.submission.number fate] :=
        List.mem_append_right _ (List.mem_singleton.mpr rfl)
      rw [hsub] at hlast
      rcases hfate with rfl | rfl | rfl
      · exact .inl (.inl (by rw [View.add, hsub]; exact hlast))
      · exact .inl (.inr (.inl (by rw [View.add, hsub]; exact hlast)))
      · refine .inr (.inl ?_)
        show chunk.observedNs ≤ if Fate.selected = .selected then max v.sentObsNs f.submission.chunk.observedNs else v.sentObsNs
        rw [if_pos rfl, hsub]
        exact le_max_right _ _
    · exact .inr (.inr (.inr hsent))
  | renew | bump =>
    exact hs.order_new (fun k chunk ss now rev hr => mem_snoc_of_ne hr nofun) rfl
  | keep ss ss' hss hserial hclosed =>
    intro ss₀ hss₀ hopen
    obtain rfl := Option.some.inj hss₀
    exact hs.order ss hss (hclosed.symm.trans hopen)
  | gone => exact nofun
  | open_ ss hss hopen hserial hidle hpending hnew =>
    intro ss₀ _ _ k chunk ss' now rev hr hsame
    obtain ⟨before, hbefore⟩ := hnew
    have hr' : Entry.revised k chunk ss' now rev ∈ v.log := mem_snoc_of_ne hr nofun
    have hfit : Justified (Sent c) before := by
      intro p a q hp
      exact hs.fit p a (q ++ [Entry.renewed]) (by rw [hbefore, hp, List.append_assoc, List.cons_append])
    rw [hbefore] at hr'
    have hle := generation_le hfit (mem_snoc_of_ne hr' nofun)
    have hsame' : chunk.generation = v.generation := hsame
    rw [hsame', hs.generation, hbefore, generationOf_snoc] at hle
    exact absurd hle (by simp [Entry.isRenewed])
  | finish ss hss =>
    intro ss₀ hss₀ hopen
    obtain rfl := Option.some.inj hss₀
    cases hopen

/-! ## the stream and the numbers -/

/-- an entry that opens or ends no session -/
def Entry.quiet : Entry → Bool
  | .opened _ | .gone _ | .cancelling _ => false
  | _ => true

theorem mem_of_quiet {a : Entry} (ho : o.quiet = true) (h : a ∈ log ++ [o]) (ha : a.quiet = false) : a ∈ log := by
  refine mem_snoc_of_ne h fun heq => ?_
  rw [heq, ho] at ha
  cases ha

theorem Sound.stream_snoc (hs : Sound c v) (ho : o.quiet = true) : ∀ ss, v.session = some ss →
    .opened ss.serial ∈ v.log ++ [o] ∧ (ss.closed = false → .gone ss.serial ∉ v.log ++ [o] ∧
      (v.cancelPending = false → .cancelling ss.serial ∉ v.log ++ [o])) := by
  intro ss hss
  obtain ⟨hopened, hlive⟩ := hs.stream ss hss
  refine ⟨List.mem_append_left _ hopened, fun hopen => ⟨fun h => ?_, fun hp h => ?_⟩⟩
  · exact (hlive hopen).1 (mem_of_quiet ho h rfl)
  · exact (hlive hopen).2 hp (mem_of_quiet ho h rfl)

theorem Move.stream (hs : Sound c v) (h : Move c bad v v') : ∀ ss, v'.session = some ss → .opened ss.serial ∈ v'.log ∧
    (ss.closed = false → .gone ss.serial ∉ v'.log ∧ (v'.cancelPending = false → .cancelling ss.serial ∉ v'.log)) := by
  cases h with
  | take | wait | list | draw => exact hs.stream
  | arrive | late | refuse | replace | revise | request | land | bump => exact hs.stream_snoc rfl
  | renew =>
    intro ss hss
    obtain ⟨hopened, hlive⟩ := hs.stream_snoc (o := .renewed) rfl ss hss
    exact ⟨hopened, fun hopen => ⟨(hlive hopen).1, nofun⟩⟩
  | ask ss₀ hss₀ hpending =>
    intro ss hss
    obtain ⟨hopened, hlive⟩ := hs.stream ss hss
    refine ⟨List.mem_append_left _ hopened, fun hopen => ⟨fun h => (hlive hopen).1 (mem_snoc_of_ne h nofun), fun hp => ?_⟩⟩
    exact absurd (hpending.symm.trans hp) nofun
  | keep ss ss' hss hserial hclosed =>
    intro ss₁ hss₁
    obtain rfl := Option.some.inj hss₁
    obtain ⟨hopened, hlive⟩ := hs.stream ss hss
    rw [hserial, hclosed]
    exact ⟨hopened, hlive⟩
  | confirm hss =>
    intro ss hss'
    exact absurd (hss.symm.trans hss') nofun
  | gone => exact nofun
  | open_ ss hss hopen hserial =>
    intro ss₁ hss₁
    obtain rfl := Option.some.inj hss₁
    refine ⟨List.mem_append_right _ (List.mem_singleton.mpr rfl), fun _ => ⟨fun h => ?_, fun _ h => ?_⟩⟩
    · have := hs.numbers ss.serial (.inr (.inl (mem_snoc_of_ne h nofun)))
      omega
    · have := hs.numbers ss.serial (.inr (.inr (mem_snoc_of_ne h nofun)))
      omega
  | finish ss hss =>
    intro ss₁ hss₁
    obtain rfl := Option.some.inj hss₁
    exact ⟨List.mem_append_left _ (hs.stream ss hss).1, nofun⟩

/-- the number of an entry about a session -/
def Entry.sessionNumber : Entry → Option ℕ
  | .opened n | .gone n | .cancelling n => some n
  | _ => none

theorem numbers_snoc {next next' : ℕ} (h : ∀ n, .opened n ∈ log ∨ .gone n ∈ log ∨ .cancelling n ∈ log → n < next)
    (hle : next ≤ next') (ho : ∀ n ∈ o.sessionNumber, n < next') :
    ∀ n, .opened n ∈ log ++ [o] ∨ .gone n ∈ log ++ [o] ∨ .cancelling n ∈ log ++ [o] → n < next' := by
  have hone : ∀ n a, a ∈ log ++ [o] → a.sessionNumber = some n → a ∈ log ∨ n < next' := by
    intro n a ha hn
    rcases List.mem_append.mp ha with ha | ha
    · exact .inl ha
    · obtain rfl := List.mem_singleton.mp ha
      exact .inr (ho n hn)
  rintro n (hn | hn | hn)
  · exact (hone n _ hn rfl).elim (fun hm => (h n (.inl hm)).trans_le hle) id
  · exact (hone n _ hn rfl).elim (fun hm => (h n (.inr (.inl hm))).trans_le hle) id
  · exact (hone n _ hn rfl).elim (fun hm => (h n (.inr (.inr hm))).trans_le hle) id

theorem Move.numbers (hs : Sound c v) (h : Move c bad v v') :
    ∀ n, .opened n ∈ v'.log ∨ .gone n ∈ v'.log ∨ .cancelling n ∈ v'.log → n < v'.nextOpen := by
  have hown : ∀ ss, v.session = some ss → ss.serial < v.nextOpen := fun ss hss => hs.numbers _ (.inl (hs.stream ss hss).1)
  cases h with
  | take | wait | list | keep | confirm => exact hs.numbers
  | draw n hn => exact fun k hk => (hs.numbers k hk).trans_le hn
  | arrive | late | refuse | replace | revise | request | land | renew | bump => exact numbers_snoc hs.numbers le_rfl nofun
  | ask ss hss | gone ss hss | finish ss hss =>
    refine numbers_snoc hs.numbers le_rfl fun n hn => ?_
    cases hn
    exact hown ss hss
  | open_ ss hss hopen hserial =>
    refine numbers_snoc hs.numbers (hserial.trans (Nat.le_succ _)) fun n hn => ?_
    cases hn
    exact Nat.lt_succ_self _

/-! ## the reports -/

theorem outcomes_snoc (k : ℕ) (log : List Entry) (o : Entry) :
    outcomes k (log ++ [o]) = outcomes k log + if o.outcome = some k then 1 else 0 := by
  unfold outcomes
  rw [List.countP_append, List.countP_singleton]
  congr 1
  split_ifs with h1 h2 h2 <;> simp_all

@[simp] theorem holds_none (k : ℕ) : holds k none = 0 := rfl

theorem holds_some (k : ℕ) (w : Submission) : holds k (some w) = if some w.number = some k then 1 else 0 := rfl

/-- what happens to the number of reports of a submission -/
inductive Tally (bad : Prop) (v v' : View) : Prop where
  | same (h : ∀ k, v'.tally k = v.tally k) (hsub : v'.submissions = v.submissions)
  | fresh (h : ∀ k, v'.tally k = v.tally k + if k = v.submissions then 1 else 0) (hsub : v'.submissions = v.submissions + 1)
  | lost (hbad : bad) (h : ∀ k, v'.tally k ≤ v.tally k) (hsub : v'.submissions = v.submissions)

/-- an entry that reports no submission, and a waiting chunk that may be forgotten -/
theorem tally_forget (hlog : v'.log = v.log ++ [o]) (ho : o.outcome = none) (hlost : v.waiting = none ∨ bad)
    (hwait : v'.waiting = none) (hhand : v'.hand = v.hand) (hsent : v'.sent = v.sent) (hsub : v'.submissions = v.submissions) :
    Tally bad v v' := by
  have htally : ∀ k, v'.tally k + holds k v.waiting = v.tally k := fun k => by
    unfold View.tally
    rw [hlog, outcomes_snoc, ho, hwait, hhand, hsent, if_neg nofun, holds_none]
    omega
  rcases hlost with hnone | hbad
  · refine .same (fun k => ?_) hsub
    have := htally k
    rwa [hnone, holds_none, add_zero] at this
  · exact .lost hbad (fun k => Nat.le.intro (htally k)) hsub

theorem Move.tally (h : Move c bad v v') : Tally bad v v' := by
  cases h with
  | arrive k hhand =>
    refine .fresh (fun j => ?_) rfl
    show outcomes j (v.log ++ [_]) + holds j v.waiting + holds j (some _) + holds j v.sent = _
    rw [outcomes_snoc, holds_some, View.tally, hhand, holds_none]
    simp only [Entry.outcome, Option.some.injEq, reduceCtorEq, if_false]
    split_ifs <;> omega
  | take w hhand hf hw =>
    refine .same (fun j => ?_) rfl
    show outcomes j v.log + holds j none + holds j (some w) + holds j v.sent = _
    rw [View.tally, hhand, hw]
    omega
  | late w hw =>
    refine .same (fun j => ?_) rfl
    show outcomes j (v.log ++ [_]) + holds j v.waiting + holds j none + holds j v.sent = _
    rw [outcomes_snoc, View.tally, hw, holds_some]
    show _ + (if some w.number = some j then 1 else 0) + _ + 0 + _ = _
    omega
  | refuse w hw =>
    refine .same (fun j => ?_) rfl
    show outcomes j (v.log ++ [_]) + holds j v.waiting + holds j none + holds j none = _
    rw [outcomes_snoc, View.tally]
    show _ + (if some w.number = some j then 1 else 0) + _ + 0 + 0 = _
    rcases hw with ⟨hw, hnone⟩ | ⟨hw, hnone⟩
    · rw [hw, hnone, holds_some, holds_none]
      omega
    · rw [hw, hnone, holds_some, holds_none]
      omega
  | wait w hw hnone =>
    refine .same (fun j => ?_) rfl
    show outcomes j v.log + holds j (some w) + holds j none + holds j v.sent = _
    rw [View.tally, hw, hnone]
    omega
  | replace w old hw hold =>
    refine .same (fun j => ?_) rfl
    show outcomes j (v.log ++ [_]) + holds j (some w) + holds j none + holds j v.sent = _
    rw [outcomes_snoc, View.tally, hw, hold, holds_some j old]
    show _ + (if some old.number = some j then 1 else 0) + _ + 0 + _ = _
    omega
  | revise w ss now rev hw hsent =>
    refine .same (fun j => ?_) rfl
    show outcomes j (v.log ++ [_]) + holds j v.waiting + holds j none + holds j (some w) = _
    rw [outcomes_snoc, View.tally, hw, hsent]
    show _ + 0 + _ + 0 + _ = _ + 0
    omega
  | request w rid hw =>
    refine .same (fun j => ?_) rfl
    show outcomes j (v.log ++ [_]) + holds j v.waiting + holds j none + holds j none = _
    rw [outcomes_snoc, View.tally]
    show _ + (if some w.number = some j then 1 else 0) + _ + 0 + 0 = _
    rcases hw with ⟨hw, hnone⟩ | ⟨hw, hnone⟩
    · rw [hw, hnone, holds_some, holds_none]
      omega
    · rw [hw, hnone, holds_some, holds_none]
      omega
  | renew hlost => exact tally_forget rfl rfl hlost rfl rfl rfl rfl
  | finish ss hss hlost => exact tally_forget rfl rfl hlost rfl rfl rfl rfl
  | list | keep | confirm | draw => exact .same (fun _ => rfl) rfl
  | land | ask | gone | bump | open_ =>
    refine .same (fun j => ?_) rfl
    show outcomes j (v.log ++ [_]) + _ + _ + _ = _
    rw [outcomes_snoc]
    rfl

theorem Move.counts (hs : Sound c v) (h : Move c bad v v') : ∀ k, v'.tally k ≤ 1 ∧ (v'.submissions ≤ k → v'.tally k = 0) := by
  intro k
  obtain ⟨hle, hzero⟩ := hs.counts k
  cases h.tally with
  | same ht hsub => exact ⟨(ht k).le.trans hle, fun hk => (ht k).trans (hzero (hsub ▸ hk))⟩
  | fresh ht hsub =>
    rw [ht, hsub]
    by_cases hk : k = v.submissions
    · rw [hzero hk.ge, if_pos hk]
      exact ⟨le_rfl, fun h => absurd h (by omega)⟩
    · rw [if_neg hk]
      exact ⟨hle, fun h => hzero (by omega)⟩
  | lost _ ht hsub => exact ⟨(ht k).trans hle, fun hk => Nat.le_zero.mp ((ht k).trans (hzero (hsub ▸ hk)).le)⟩

/-- every submission is reported once or still at hand -/
def View.Kept (v : View) : Prop := ∀ k < v.submissions, v.tally k = 1

theorem Move.kept (hs : Sound c v) (h : Move c bad v v') (hgood : ¬ bad) (hk : v.Kept) : v'.Kept := by
  intro k hlt
  cases h.tally with
  | same ht hsub => exact (ht k).trans (hk k (hsub ▸ hlt))
  | fresh ht hsub =>
    rw [ht]
    by_cases heq : k = v.submissions
    · rw [(hs.counts k).2 heq.ge, if_pos heq]
    · rw [if_neg heq, hk k (by omega)]
  | lost hbad => exact absurd hbad hgood

theorem filterMap_snoc {f : Entry → Option String} {id : String} (h : f o = some id) :
    (log ++ [o]).filterMap f = log.filterMap f ++ [id] := by
  rw [List.filterMap_append, List.filterMap_cons_some h, List.filterMap_nil]

theorem filterMap_quiet {f : Entry → Option String} (h : f o = none) : (log ++ [o]).filterMap f = log.filterMap f := by
  rw [List.filterMap_append, List.filterMap_cons_none h, List.filterMap_nil, List.append_nil]

theorem Lists.Mirror.quiet {r : Lists} (h : r.Mirror log) (hl : lateId o = none) (hr : refusedId o = none)
    (hp : replacedId o = none) (hq : requestedId o = none) : r.Mirror (log ++ [o]) :=
  ⟨by rw [filterMap_quiet hl]; exact h.late, by rw [filterMap_quiet hr]; exact h.refused,
    by rw [filterMap_quiet hp]; exact h.replaced, by rw [filterMap_quiet hq]; exact h.requested⟩

theorem Move.mirror (hs : Sound c v) (h : Move c bad v v') : v'.lists.Mirror v'.log := by
  obtain ⟨hl, hr, hp, hq⟩ := hs.mirror
  cases h with
  | take | wait | keep | confirm | draw => exact hs.mirror
  | list refused hsub => exact ⟨hl, hr.trans hsub, hp, hq⟩
  | late w =>
    refine ⟨(congrArg (· ++ _) hl).trans (filterMap_snoc rfl).symm, ?_, hp.trans (filterMap_quiet rfl).symm,
      hq.trans (filterMap_quiet rfl).symm⟩
    show ((v.log ++ [Entry.late w.number w.chunk]).filterMap refusedId).Sublist _
    rw [filterMap_quiet rfl]
    exact hr
  | refuse w =>
    refine ⟨hl.trans (filterMap_quiet rfl).symm, ?_, hp.trans (filterMap_quiet rfl).symm, hq.trans (filterMap_quiet rfl).symm⟩
    show ((v.log ++ [_]).filterMap refusedId).Sublist _
    rw [filterMap_snoc rfl]
    exact hr.append (List.Sublist.refl _)
  | replace w old =>
    refine ⟨hl.trans (filterMap_quiet rfl).symm, ?_, (congrArg (· ++ _) hp).trans (filterMap_snoc rfl).symm,
      hq.trans (filterMap_quiet rfl).symm⟩
    show ((v.log ++ [Entry.replaced old.number old.chunk w.chunk]).filterMap refusedId).Sublist _
    rw [filterMap_quiet rfl]
    exact hr
  | request w =>
    refine ⟨hl.trans (filterMap_quiet rfl).symm, ?_, hp.trans (filterMap_quiet rfl).symm,
      (congrArg (· ++ _) hq).trans (filterMap_snoc rfl).symm⟩
    show ((v.log ++ [Entry.requested w.number w.chunk]).filterMap refusedId).Sublist _
    rw [filterMap_quiet rfl]
    exact hr
  | arrive | revise | land | renew | ask | gone | bump | open_ | finish => exact hs.mirror.quiet rfl rfl rfl rfl

theorem Move.sound (hs : Sound c v) (h : Move c bad v v') : Sound c v' :=
  ⟨h.fit hs, h.generation hs, h.fate hs, h.order hs, h.stream hs, h.numbers hs, h.counts hs, h.mirror hs⟩

theorem Move.inOrder (h : Move c bad v v') (hgood : ¬ bad) (hj : Justified InOrder v.log) : Justified InOrder v'.log := by
  cases h with
  | take | wait | list | keep | confirm | draw => exact hj
  | replace w old hw hold horder => exact hj.snoc (horder.resolve_right hgood)
  | _ => exact hj.snoc trivial

end

end ArmControl.Clients.Chunks
